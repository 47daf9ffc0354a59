import Watt32.Sk.Pktq
import Watt32.Udp.Sums

/-!
# The loopback device

`loopback_device` of `loopback.c` and `send_loopback` of `pcsed.c`: a packet to ourselves goes to the receive ring.
The link is Ethernet, without a PPPoE session, or serial.

* `Device`: the packet on the stack and the counter of echo replies; `icmpLoopback`, `udpLoopback`,
  `loopbackDevice`: the device.
* `Host`, `sendLoopback`: the ring, and the frame that is put into it.
* `Whole`: the frame has the whole packet, with the addresses swapped and all checksums right.
* **`loopback_whole_iff`**: which packets come back so.
-/

namespace Watt32.Loopback

open Tcp (Packet ver inGetHdrLen inLength in6Len inChecksum readWord)
open Ip (bytes16 stored16)
open OnesSum (littleSum bigSum Ones)
open Pktq (Ringbuf Producer pktqInIndex pktqInBuf)

abbrev Byte := BitVec 8
abbrev Word := BitVec 16

/-! ## The source -/

/-- The packet, and `echo_seq_num`. -/
structure Device where
  mem : Packet
  echoSeqNum : Word

/-- `x->checksum = 0; x->checksum = ~CHECKSUM (x, n)`, the field being `c` bytes behind `x`. -/
def redoChecksum (m : Packet) (x n c : ℕ) : Packet :=
  let m := Mem.put m (x + c) [0, 0]
  Mem.put m (x + c) (stored16 (~~~BitVec.ofNat 16 (inChecksum (Mem.slice m x n))))

/-- `icmp_loopback`: `sizeof(icmp->echo)` is 12. -/
def icmpLoopback (d : Device) (icmp icmpLen : ℕ) : Device × ℕ :=
  if 12 ≤ icmpLen ∧ inChecksum (Mem.slice d.mem icmp icmpLen) = 0xffff ∧ d.mem icmp = 8 then
    let m := Mem.put d.mem icmp [0]
    let m := Mem.put m (icmp + 6) (stored16 d.echoSeqNum)
    ({ mem := redoChecksum m icmp icmpLen 2, echoSeqNum := d.echoSeqNum + 1 }, icmpLen)
  else (d, 0)

/-- `udp_loopback` does nothing for any port yet. -/
def udpLoopback (d : Device) (_udp _udpLen : ℕ) : Device × ℕ := (d, 0)

/-- `_chk_ip4_header`. -/
def chkIp4Header (ip : Packet) : Bool :=
  ver ip = 4 ∧ 20 ≤ inGetHdrLen ip ∧ inChecksum (Mem.slice ip 0 (inGetHdrLen ip)) = 0xffff

/-- Source and destination change places. -/
def swap (m : Packet) (src dst n : ℕ) : Packet := Mem.put (Mem.put m dst (Mem.slice m src n)) src (Mem.slice m dst n)

/-- `ip_ofs || (ip_flg & IP_MF)`. -/
def isFragment (ip : Packet) : Bool := readWord ip 6 &&& 0x1fff ≠ 0 ∨ readWord ip 6 &&& 0x2000 ≠ 0

/-- `LBACK_MODE_ENABLE`. -/
def lbackModeEnable : Word := 1

/-- `loopback_device`, with `loopback_mode` and `loopback_handler`; a difference passed as `unsigned` wraps. -/
def loopbackDevice (mode : Word) (handler : Option (Device → Device × ℤ)) (d : Device) : Device × ℤ :=
  let finish (d : Device) (ipLen : ℤ) : Device × ℤ := (handler.map fun h => h d).getD (d, ipLen)
  if mode &&& lbackModeEnable = 0 then (d, -1)
  else if ver d.mem = 4 then
    if chkIp4Header d.mem = false then (d, -1)
    else
      let hlen := inGetHdrLen d.mem
      let ipLen := (inLength d.mem).toNat
      let len := (ipLen + 2 ^ 32 - hlen) % 2 ^ 32
      let d := { d with mem := redoChecksum (swap d.mem 12 16 4) 0 hlen 10 }
      if isFragment d.mem then (d, ipLen)
      else if d.mem 9 = 1 then
        let r := icmpLoopback d hlen len
        if 0 < r.2 then (r.1, hlen + r.2) else finish r.1 ipLen
      else if d.mem 9 = 17 then
        let r := udpLoopback d hlen len
        if 0 < r.2 then (r.1, hlen + r.2) else finish r.1 ipLen
      else finish d ipLen
  else if ver d.mem = 6 then
    let ipLen := (in6Len d.mem).toNat
    let d := { d with mem := swap d.mem 8 24 16 }
    if d.mem 6 = 58 then
      let r := icmpLoopback d 40 ipLen
      if 0 < r.2 then (r.1, r.2 + 40) else finish r.1 ipLen
    else if d.mem 6 = 17 then
      let r := udpLoopback d 40 ipLen
      if 0 < r.2 then (r.1, r.2 + 40) else finish r.1 ipLen
    else finish d ipLen
  else (d, -1)

/-- What the functions read: `loopback_mode`, `loopback_handler`, `_mtu`, `_pktserial` and our addresses. -/
structure Env where
  loopbackMode : Word := lbackModeEnable
  loopbackHandler : Option (Device → Device × ℤ) := none
  mtu : ℕ := 1500
  pktserial : Bool := false
  ethAddr : List Byte := List.replicate 6 0
  ethLoopAddr : List Byte := List.replicate 6 0

/-- `_pkt_ip_ofs`. -/
def Env.ipOfs (env : Env) : ℕ := if env.pktserial then 0 else 14

/-- `_pkt_inf->pkt_queue` with the frames in its buffers, `echo_seq_num`, and the count of dropped packets. -/
structure Host where
  q : Ringbuf
  pool : ℕ → List Byte
  echoSeqNum : Word := 0
  odropped : ℕ := 0

/-- The frame: on Ethernet `eth_mac_format` clears the first 46 bytes of the data before they are copied. -/
def frameOf (env : Env) (isIp6 : Bool) (m : Packet) (ipLen : ℕ) : List Byte :=
  if env.pktserial then Mem.slice m 0 ipLen
  else env.ethAddr ++ env.ethLoopAddr ++ (if isIp6 then [0x86, 0xDD] else [8, 0]) ++
    (Mem.slice m 0 ipLen ++ List.replicate (46 - ipLen) 0)

/-- `send_loopback`: the host and the result. -/
def sendLoopback (env : Env) (s : Host) (isIp6 : Bool) (ip : Packet) : Host × ℤ :=
  let r := loopbackDevice env.loopbackMode env.loopbackHandler ⟨ip, s.echoSeqNum⟩
  let s := { s with echoSeqNum := r.1.echoSeqNum }
  if (env.mtu : ℤ) < r.2 then ({ s with odropped := s.odropped + 1 }, 0)
  else if 0 < r.2 then
    if pktqInIndex s.q = s.q.outIndex.toNat then
      ({ s with q := { s.q with numDrop := s.q.numDrop + 1 }, odropped := s.odropped + 1 }, 0)
    else
      ({ s with
          pool := Function.update s.pool (pktqInBuf s.q) (frameOf env isIp6 r.1.mem r.2.toNat)
          q := Producer.sendLoopback.advance s.q }, r.2 + env.ipOfs)
  else (s, r.2 + env.ipOfs)

/-! ## The law -/

/-- The length of the packet with its header. -/
def total (isIp6 : Bool) (ip : Packet) : ℕ := if isIp6 then 40 + (in6Len ip).toNat else (inLength ip).toNat

/-- The header. -/
def header (isIp6 : Bool) (ip : Packet) : ℕ := if isIp6 then 40 else inGetHdrLen ip

/-- Where the addresses are, and their size. -/
def srcAt (isIp6 : Bool) : ℕ := if isIp6 then 8 else 12
def dstAt (isIp6 : Bool) : ℕ := if isIp6 then 24 else 16
def addrLen (isIp6 : Bool) : ℕ := if isIp6 then 16 else 4

/-- The protocol of the payload. -/
def protoOf (isIp6 : Bool) (ip : Packet) : Byte := ip (if isIp6 then 6 else 9)

/-- The pseudo header over `len` bytes of payload. -/
def pseudo (isIp6 : Bool) (ip : Packet) (len : ℕ) : List Byte :=
  Mem.slice ip (srcAt isIp6) (addrLen isIp6) ++ (Mem.slice ip (dstAt isIp6) (addrLen isIp6) ++
    if isIp6 then [0, 0] ++ bytes16 (BitVec.ofNat 16 len) ++ [0, 0, 0, protoOf isIp6 ip]
    else [0, protoOf isIp6 ip] ++ bytes16 (BitVec.ofNat 16 len))

/-- The transport checksum verifies. -/
def TransportOk (isIp6 : Bool) (ip : Packet) (data : List Byte) : Prop :=
  Ones (bigSum (pseudo isIp6 ip data.length ++ data))

/-- An ICMPv4 echo request that is no fragment and whose checksum is correct. -/
def EchoRequest (isIp6 : Bool) (ip : Packet) : Prop :=
  isIp6 = false ∧ isFragment ip = false ∧ ip 9 = 1 ∧ ip (header isIp6 ip) = 8 ∧
    8 ≤ total isIp6 ip - header isIp6 ip ∧
    inChecksum (Mem.slice ip (header isIp6 ip) (total isIp6 ip - header isIp6 ip)) = 0xffff

/-- The reply: another type, the number `seq`, a correct checksum, and the rest of the request. -/
structure EchoReply (ip f : Packet) (h n : ℕ) (seq : Word) : Prop where
  type : f h = 0
  sum : inChecksum (Mem.slice f h (n - h)) = 0xffff
  sequence : Mem.slice f (h + 6) 2 = stored16 seq
  rest : ∀ i, h ≤ i → i < n → i ≠ h → i ≠ h + 2 → i ≠ h + 3 → i ≠ h + 6 → i ≠ h + 7 → f i = ip i

/-- A packet that came back. -/
structure CameBack (isIp6 : Bool) (ip f : Packet) (seq : Word) : Prop where
  source : Mem.slice f (srcAt isIp6) (addrLen isIp6) = Mem.slice ip (dstAt isIp6) (addrLen isIp6)
  destination : Mem.slice f (dstAt isIp6) (addrLen isIp6) = Mem.slice ip (srcAt isIp6) (addrLen isIp6)
  fixed : ∀ i < header isIp6 ip, (i < 8 ∨ isIp6 = false ∧ (i < 10 ∨ 20 ≤ i)) → f i = ip i
  sum : isIp6 = false → inChecksum (Mem.slice f 0 (header isIp6 ip)) = 0xffff
  payload : ¬ EchoRequest isIp6 ip → ∀ i, header isIp6 ip ≤ i → i < total isIp6 ip → f i = ip i
  echo : EchoRequest isIp6 ip → EchoReply ip f (header isIp6 ip) (total isIp6 ip) seq
  /-- For a fragment, `data` is the segment or datagram that it is part of. -/
  transport : protoOf isIp6 ip = 6 ∨ protoOf isIp6 ip = 17 →
    ∀ data : List Byte, TransportOk isIp6 f data ↔ TransportOk isIp6 ip data

/-- The frame put into the ring begins with the MAC header and the packet that came back. -/
def Whole (env : Env) (s s' : Host) (isIp6 : Bool) (ip : Packet) : Prop :=
  s'.q = Producer.sendLoopback.advance s.q ∧
    ∃ mac pad : List Byte, ∃ f : Packet, mac.length = env.ipOfs ∧
      s'.pool (pktqInBuf s.q) = mac ++ (Mem.slice f 0 (total isIp6 ip) ++ pad) ∧ CameBack isIp6 ip f s.echoSeqNum

/-- A packet to a loopback address, in a host without a loopback handler and with room in its ring. -/
structure Sendable (env : Env) (s : Host) (isIp6 : Bool) (ip : Packet) : Prop where
  handler : env.loopbackHandler = none
  macs : env.ethAddr.length = 6 ∧ env.ethLoopAddr.length = 6
  ring : s.q.inIndex < s.q.numBuf ∧ 2 ≤ s.q.numBuf
  room : pktqInIndex s.q ≠ s.q.outIndex.toNat
  mtu : total isIp6 ip ≤ env.mtu
  version : ver ip = if isIp6 then 6 else 4
  valid4 : isIp6 = false → chkIp4Header ip = true ∧ inGetHdrLen ip ≤ (inLength ip).toNat ∧ ip 16 = 127
  loopback6 : isIp6 = true → Mem.slice ip 24 16 = List.replicate 15 0 ++ [1]

/-- The device is enabled, and the packet is an IPv4 packet and no echo request of less than 12 bytes. -/
def Served (env : Env) (isIp6 : Bool) (ip : Packet) : Prop :=
  env.loopbackMode &&& lbackModeEnable ≠ 0 ∧ isIp6 = false ∧
    (EchoRequest isIp6 ip → 12 ≤ total isIp6 ip - header isIp6 ip)

variable {env : Env} {s : Host} {isIp6 : Bool} {ip m : Packet} {x n c i k : ℕ} {data : List Byte}

/-! ## Headers -/

theorem redo_of_ne (h : i < x + c ∨ x + c + 2 ≤ i) : redoChecksum m x n c i = m i := by
  have hlen : ∀ w : Word, (stored16 w).length = 2 := fun _ => rfl
  unfold redoChecksum
  rcases h with h | h
  · rw [Mem.put_of_lt h, Mem.put_of_lt h]
  · rw [Mem.put_of_ge (by rw [hlen]; exact h), Mem.put_of_ge (by exact h)]

/-- A field at an even place makes the sum right. -/
theorem redo_verifies (heven : c % 2 = 0) (hc : c + 2 ≤ n) (hn : n ≤ 65535) :
    inChecksum (Mem.slice (redoChecksum m x n c) x n) = 0xffff := by
  have hparts (m : Packet) : Mem.slice m x n =
      Mem.slice m x c ++ Mem.slice m (x + c) 2 ++ Mem.slice m (x + c + 2) (n - (c + 2)) := by
    rw [← Mem.slice_add, Nat.add_assoc x c 2, ← Mem.slice_add, Nat.add_sub_cancel' hc]
  have hput (m : Packet) (w : List Byte) (hw : w.length = 2) : Mem.slice (Mem.put m (x + c) w) x n =
      Mem.slice m x c ++ w ++ Mem.slice m (x + c + 2) (n - (c + 2)) := by
    have hfield : Mem.slice (Mem.put m (x + c) w) (x + c) w.length = w := Mem.slice_put
    rw [hw] at hfield
    rw [hparts, Mem.slice_put_disjoint (.inl le_rfl), hfield, Mem.slice_put_disjoint (.inr (by rw [hw]))]
  unfold redoChecksum
  rw [hput _ _ rfl, hput _ _ rfl, Mem.slice_put_disjoint (.inl le_rfl),
    Mem.slice_put_disjoint (.inr (le_refl (x + c + 2)))]
  refine Udp.inChecksum_stored (by rw [Mem.length_slice]; exact heven) ?_
  simp only [List.length_append, Mem.length_slice, List.length_cons, List.length_nil]
  omega

/-! ## IPv4 -/

/-- The packet behind its new header. -/
def turned (ip : Packet) : Packet := redoChecksum (swap ip 12 16 4) 0 (inGetHdrLen ip) 10

theorem hdrLen_le (ip : Packet) : inGetHdrLen ip ≤ 60 := by
  have := ((ip 0).extractLsb' 0 4).isLt
  unfold inGetHdrLen
  omega

theorem swap_of_ne (h : i < 12 ∨ 20 ≤ i) : swap ip 12 16 4 i = ip i := by
  unfold swap
  rcases h with h | h
  · rw [Mem.put_of_lt h, Mem.put_of_lt (by omega)]
  · rw [Mem.put_of_ge (by rw [Mem.length_slice]; omega), Mem.put_of_ge (by rw [Mem.length_slice]; omega)]

/-- Only the checksum and the addresses are touched. -/
theorem turned_of_ne (h : i < 10 ∨ 20 ≤ i) : turned ip i = ip i := by
  unfold turned
  rw [redo_of_ne (by omega), swap_of_ne (by omega)]

theorem turned_source : Mem.slice (turned ip) 12 4 = Mem.slice ip 16 4 := by
  have hredo : Mem.slice (turned ip) 12 4 = Mem.slice (swap ip 12 16 4) 12 4 :=
    Mem.slice_congr fun i hi => redo_of_ne (.inr (by omega))
  have hput : Mem.slice (swap ip 12 16 4) 12 (Mem.slice ip 16 4).length = Mem.slice ip 16 4 := Mem.slice_put
  rw [Mem.length_slice] at hput
  rw [hredo, hput]

theorem turned_destination : Mem.slice (turned ip) 16 4 = Mem.slice ip 12 4 := by
  have hredo : Mem.slice (turned ip) 16 4 = Mem.slice (swap ip 12 16 4) 16 4 :=
    Mem.slice_congr fun i hi => redo_of_ne (.inr (by omega))
  have hput : Mem.slice (Mem.put ip 16 (Mem.slice ip 12 4)) 16 (Mem.slice ip 12 4).length = Mem.slice ip 12 4 :=
    Mem.slice_put
  rw [Mem.length_slice] at hput
  rw [hredo]
  unfold swap
  rw [Mem.slice_put_disjoint (.inr (by rw [Mem.length_slice])), hput]

theorem turned_sum (h : 20 ≤ inGetHdrLen ip) :
    inChecksum (Mem.slice (turned ip) 0 (inGetHdrLen ip)) = 0xffff := by
  have := hdrLen_le ip
  exact redo_verifies rfl (by omega) (by omega)

theorem isFragment_turned : isFragment (turned ip) = isFragment ip := by
  unfold isFragment readWord
  rw [turned_of_ne (.inl (by decide)), turned_of_ne (.inl (by decide))]

/-- The payload is where it was. -/
theorem slice_turned (h : 20 ≤ x) : Mem.slice (turned ip) x n = Mem.slice ip x n :=
  Mem.slice_congr fun i hi => turned_of_ne (.inr (by omega))

/-- The reply of `icmp_loopback`. -/
def reply (m : Packet) (icmp icmpLen : ℕ) (seq : Word) : Packet :=
  redoChecksum (Mem.put (Mem.put m icmp [0]) (icmp + 6) (stored16 seq)) icmp icmpLen 2

/-- The device answers: an echo request of 12 bytes or more. -/
def Answered (ip : Packet) : Prop :=
  EchoRequest false ip ∧ 12 ≤ (inLength ip).toNat - inGetHdrLen ip

instance : Decidable (Answered ip) := inferInstanceAs (Decidable ((_ ∧ _ ∧ _ ∧ _ ∧ _ ∧ _) ∧ _))

/-- `icmp_loopback` on the payload behind a new header. -/
theorem icmpLoopback_turned {seq : Word} (hhdr : 20 ≤ inGetHdrLen ip) (hfrag : isFragment ip = false) (hicmp : ip 9 = 1) :
    icmpLoopback ⟨turned ip, seq⟩ (inGetHdrLen ip) ((inLength ip).toNat - inGetHdrLen ip) =
      if Answered ip then
        (⟨reply (turned ip) (inGetHdrLen ip) ((inLength ip).toNat - inGetHdrLen ip) seq, seq + 1⟩,
          (inLength ip).toNat - inGetHdrLen ip)
      else (⟨turned ip, seq⟩, 0) := by
  have hiff : (12 ≤ (inLength ip).toNat - inGetHdrLen ip ∧
      inChecksum (Mem.slice (turned ip) (inGetHdrLen ip) ((inLength ip).toNat - inGetHdrLen ip)) = 0xffff ∧
      turned ip (inGetHdrLen ip) = 8) ↔ Answered ip := by
    rw [slice_turned hhdr, turned_of_ne (.inr hhdr)]
    unfold Answered EchoRequest header total
    simp only [hicmp, hfrag, Bool.false_eq_true, if_false, true_and]
    constructor
    · rintro ⟨h12, hsum, htype⟩
      exact ⟨⟨htype, by omega, hsum⟩, h12⟩
    · rintro ⟨⟨htype, -, hsum⟩, h12⟩
      exact ⟨h12, hsum, htype⟩
  unfold icmpLoopback
  by_cases hans : Answered ip
  · rw [if_pos hans]
    exact if_pos (hiff.mpr hans)
  · rw [if_neg hans]
    exact if_neg (mt hiff.mp hans)

/-- What the device does with an IPv4 packet. -/
theorem device_ip4 {mode seq : Word} (hmode : mode &&& lbackModeEnable ≠ 0) (hvalid : chkIp4Header ip = true)
    (hle : inGetHdrLen ip ≤ (inLength ip).toNat) :
    loopbackDevice mode none ⟨ip, seq⟩ =
      (if Answered ip then
        ⟨reply (turned ip) (inGetHdrLen ip) ((inLength ip).toNat - inGetHdrLen ip) seq, seq + 1⟩
      else ⟨turned ip, seq⟩, ((inLength ip).toNat : ℤ)) := by
  obtain ⟨hver, hhdr, -⟩ := of_decide_eq_true hvalid
  have hlt := (inLength ip).isLt
  have hlen : ((inLength ip).toNat + 2 ^ 32 - inGetHdrLen ip) % 2 ^ 32 = (inLength ip).toNat - inGetHdrLen ip := by omega
  have hturned : redoChecksum (swap ip 12 16 4) 0 (inGetHdrLen ip) 10 = turned ip := rfl
  have hproto : turned ip 9 = ip 9 := turned_of_ne (.inl (by decide))
  unfold loopbackDevice
  dsimp only
  simp only [if_neg hmode, if_pos hver, hvalid, Bool.true_eq_false, if_false, hlen, hturned, isFragment_turned, hproto]
  by_cases hfrag : isFragment ip = true
  · have hno : ¬ Answered ip := fun h => Bool.noConfusion (h.1.2.1.symm.trans hfrag)
    rw [if_pos hfrag, if_neg hno]
  · rw [if_neg hfrag]
    by_cases hicmp : ip 9 = 1
    · rw [if_pos hicmp, icmpLoopback_turned hhdr (Bool.eq_false_iff.mpr hfrag) hicmp]
      by_cases hans : Answered ip
      · have hpos : 0 < (inLength ip).toNat - inGetHdrLen ip := by
          have := hans.2
          omega
        rw [if_pos hans, if_pos hpos, if_pos hans, ← Nat.cast_add, Nat.add_sub_cancel' hle]
      · rw [if_neg hans, if_neg (lt_irrefl 0), if_neg hans]
        rfl
    · have hno : ¬ Answered ip := fun h => hicmp h.1.2.2.1
      rw [if_neg hicmp, if_neg hno]
      by_cases hudp : ip 9 = 17
      · rw [if_pos hudp]
        rfl
      · rw [if_neg hudp]
        rfl

/-- The host after an IPv4 packet. -/
theorem send_ip4 (h : Sendable env s false ip) (hmode : env.loopbackMode &&& lbackModeEnable ≠ 0) :
    (sendLoopback env s false ip).1.q = Producer.sendLoopback.advance s.q ∧
    (sendLoopback env s false ip).1.pool (pktqInBuf s.q) = frameOf env false
      (if Answered ip then
        reply (turned ip) (inGetHdrLen ip) ((inLength ip).toNat - inGetHdrLen ip) s.echoSeqNum
      else turned ip) (inLength ip).toNat := by
  obtain ⟨hvalid, hle, -⟩ := h.valid4 rfl
  obtain ⟨-, hhdr, -⟩ := of_decide_eq_true hvalid
  have hmtu : ¬ (env.mtu : ℤ) < ((inLength ip).toNat : ℤ) := by
    have := h.mtu
    unfold total at this
    simp only [Bool.false_eq_true, if_false] at this
    omega
  have hpos : (0 : ℤ) < ((inLength ip).toNat : ℤ) := by omega
  unfold sendLoopback
  simp only [h.handler, device_ip4 hmode hvalid hle, if_neg hmtu, if_pos hpos, if_neg h.room]
  refine ⟨trivial, ?_⟩
  simp only [Function.update_self, Int.toNat_natCast]
  by_cases hans : Answered ip
  · rw [if_pos hans, if_pos hans]
  · rw [if_neg hans, if_neg hans]

/-! ### What came back -/

/-- A header with its addresses exchanged has the same pseudo header sum. -/
theorem transportOk_turned {f : Packet} (hsrc : Mem.slice f 12 4 = Mem.slice ip 16 4)
    (hdst : Mem.slice f 16 4 = Mem.slice ip 12 4) (hproto : f 9 = ip 9) :
    TransportOk false f data ↔ TransportOk false ip data := by
  have hsum (a b r : List Byte) (ha : a.length = 4) (hb : b.length = 4) :
      littleSum (a ++ (b ++ r)) = littleSum a + (littleSum b + littleSum r) := by
    rw [OnesSum.littleSum_append (by rw [ha]), OnesSum.littleSum_append (by rw [hb])]
  have hparts (m : Packet) : pseudo false m data.length ++ data = Mem.slice m 12 4 ++ (Mem.slice m 16 4 ++
      ([0, m 9] ++ bytes16 (BitVec.ofNat 16 data.length) ++ data)) := by
    unfold pseudo srcAt dstAt addrLen protoOf
    simp only [Bool.false_eq_true, if_false, List.append_assoc]
  unfold TransportOk
  rw [← OnesSum.ones_little, ← OnesSum.ones_little, hparts, hparts, hsrc, hdst, hproto,
    hsum _ _ _ Mem.length_slice Mem.length_slice, hsum _ _ _ Mem.length_slice Mem.length_slice, Nat.add_left_comm]

theorem reply_of_lt {seq : Word} (h : i < x) : reply m x n seq i = m i := by
  unfold reply
  rw [redo_of_ne (by omega), Mem.put_of_lt (by omega), Mem.put_of_lt h]

/-- The reply of the device is an echo reply. -/
theorem reply_echo (seq : Word) (hlen : 4 ≤ n - x) (hn : n - x ≤ 65535) :
    EchoReply m (reply m x (n - x) seq) x n seq where
  type := by
    have hfirst : Mem.put m x [0] (x + 0) = 0 := Mem.put_of_mem (by decide)
    unfold reply
    rw [redo_of_ne (by omega), Mem.put_of_lt (by omega)]
    exact hfirst
  sum := redo_verifies rfl hlen hn
  sequence := by
    have hput : Mem.slice (Mem.put (Mem.put m x [0]) (x + 6) (stored16 seq)) (x + 6) (stored16 seq).length =
      stored16 seq := Mem.slice_put
    rw [← hput]
    exact Mem.slice_congr fun i hi => redo_of_ne (.inr (by omega))
  rest := by
    intro i hx hi h0 h2 h3 h6 h7
    have hseq : (stored16 seq).length = 2 := rfl
    unfold reply
    rw [redo_of_ne (by omega)]
    have hsecond : Mem.put (Mem.put m x [0]) (x + 6) (stored16 seq) i = Mem.put m x [0] i := by
      rcases Nat.lt_or_ge i (x + 6) with h | h
      · exact Mem.put_of_lt h
      · exact Mem.put_of_ge (by omega)
    rw [hsecond, Mem.put_of_ge (by simp only [List.length_cons, List.length_nil]; omega)]

/-- An IPv4 packet comes back in any memory that agrees with the turned packet on the header. -/
theorem cameBack_ip4 {f : Packet} {seq : Word} (hhdr : 20 ≤ inGetHdrLen ip)
    (hhead : ∀ i < inGetHdrLen ip, f i = turned ip i)
    (hpayload : ¬ EchoRequest false ip → ∀ i, inGetHdrLen ip ≤ i → i < (inLength ip).toNat → f i = ip i)
    (hecho : EchoRequest false ip → EchoReply ip f (inGetHdrLen ip) (inLength ip).toNat seq) :
    CameBack false ip f seq := by
  have hsrc : Mem.slice f 12 4 = Mem.slice ip 16 4 := by
    rw [← turned_source]
    exact Mem.slice_congr fun i hi => hhead _ (by omega)
  have hdst : Mem.slice f 16 4 = Mem.slice ip 12 4 := by
    rw [← turned_destination]
    exact Mem.slice_congr fun i hi => hhead _ (by omega)
  have hproto : f 9 = ip 9 := (hhead 9 (by omega)).trans (turned_of_ne (.inl (by decide)))
  refine ⟨hsrc, hdst, ?_, ?_, hpayload, hecho, fun _ data => transportOk_turned hsrc hdst hproto⟩
  · intro i hi hcase
    rw [hhead i hi]
    refine turned_of_ne ?_
    rcases hcase with h | ⟨-, h⟩
    · exact .inl (by omega)
    · exact h
  · intro _
    have hslice : Mem.slice f 0 (inGetHdrLen ip) = Mem.slice (turned ip) 0 (inGetHdrLen ip) :=
      Mem.slice_congr fun i hi => by
        rw [Nat.zero_add]
        exact hhead i hi
    exact (congrArg inChecksum hslice).trans (turned_sum hhdr)

/-! ## Frames -/

/-- Behind the MAC header. -/
theorem frameOf_eq (isIp6 : Bool) (m : Packet) (n : ℕ) (hmacs : env.ethAddr.length = 6 ∧ env.ethLoopAddr.length = 6) :
    ∃ mac : List Byte, mac.length = env.ipOfs ∧ frameOf env isIp6 m n =
      mac ++ (Mem.slice m 0 n ++ if env.pktserial then [] else List.replicate (46 - n) 0) := by
  obtain ⟨heth, hloop⟩ := hmacs
  unfold frameOf Env.ipOfs
  cases env.pktserial with
  | true => exact ⟨[], rfl, by simp⟩
  | false =>
    refine ⟨env.ethAddr ++ env.ethLoopAddr ++ (if isIp6 then [0x86, 0xDD] else [8, 0]), ?_, rfl⟩
    cases isIp6 <;> simp [heth, hloop]

/-- What `Whole` has of the frame. -/
theorem Whole.frame {s' : Host} (h : Whole env s s' isIp6 ip) (hmacs : env.ethAddr.length = 6 ∧ env.ethLoopAddr.length = 6)
    (hpool : s'.pool (pktqInBuf s.q) = frameOf env isIp6 m n) :
    ∃ f : Packet, CameBack isIp6 ip f s.echoSeqNum ∧ ∃ pad : List Byte,
      Mem.slice f 0 (total isIp6 ip) ++ pad =
        Mem.slice m 0 n ++ if env.pktserial then [] else List.replicate (46 - n) 0 := by
  obtain ⟨-, mac, pad, f, hmac, hframe, hback⟩ := h
  obtain ⟨mac', hmac', hframe'⟩ := frameOf_eq isIp6 m n hmacs
  rw [hpool, hframe'] at hframe
  exact ⟨f, hback, pad, (List.append_inj_right hframe (hmac'.trans hmac.symm)).symm⟩

/-- A frame with the whole packet determines it. -/
theorem Whole.bytes {s' : Host} (h : Whole env s s' isIp6 ip) (hmacs : env.ethAddr.length = 6 ∧ env.ethLoopAddr.length = 6)
    (hpool : s'.pool (pktqInBuf s.q) = frameOf env isIp6 m (total isIp6 ip)) :
    ∃ f : Packet, CameBack isIp6 ip f s.echoSeqNum ∧ ∀ i < total isIp6 ip, f i = m i := by
  obtain ⟨f, hback, pad, heq⟩ := h.frame hmacs hpool
  refine ⟨f, hback, fun i hi => ?_⟩
  have hslice : Mem.slice f 0 (total isIp6 ip) = Mem.slice m 0 (total isIp6 ip) :=
    List.append_inj_left heq (by rw [Mem.length_slice, Mem.length_slice])
  have hat := Mem.slice_eq_iff.mp hslice i hi
  rwa [Nat.zero_add] at hat

/-- With room the ring changes when a frame is put. -/
theorem advance_ne (hring : s.q.inIndex < s.q.numBuf ∧ 2 ≤ s.q.numBuf) :
    Producer.sendLoopback.advance s.q ≠ s.q := by
  obtain ⟨hin, hnum⟩ := hring
  rw [BitVec.lt_def] at hin
  rw [BitVec.le_def] at hnum
  have htwo : (2 : Word).toNat = 2 := rfl
  have hnumlt := s.q.numBuf.isLt
  intro h
  have hindex : (BitVec.ofNat 16 (pktqInIndex s.q)).toNat = s.q.inIndex.toNat :=
    congrArg (fun q : Ringbuf => q.inIndex.toNat) h
  rw [BitVec.toNat_ofNat] at hindex
  unfold pktqInIndex at hindex
  dsimp only at hindex
  split at hindex <;> omega

/-! ## IPv6 -/

/-- A disabled device refuses. -/
theorem device_disabled {mode seq : Word} {handler : Option (Device → Device × ℤ)}
    (h : mode &&& lbackModeEnable = 0) : loopbackDevice mode handler ⟨ip, seq⟩ = (⟨ip, seq⟩, -1) := by
  unfold loopbackDevice
  simp only [if_pos h]

/-- An IPv6 packet with its addresses exchanged. -/
def turned6 (ip : Packet) : Packet := swap ip 8 24 16

/-- What the device does with an IPv6 packet: the length is that of the payload, but for an ICMPv4 echo request. -/
theorem device_ip6 {mode : Word} (seq : Word) (hmode : mode &&& lbackModeEnable ≠ 0) (hver : ver ip = 6) :
    (∃ d : Device, loopbackDevice mode none ⟨ip, seq⟩ = (d, ((in6Len ip).toNat : ℤ))) ∨
      ip 40 = 8 ∧ 12 ≤ (in6Len ip).toNat ∧ ∃ d : Device, d.mem 40 = 0 ∧
        loopbackDevice mode none ⟨ip, seq⟩ = (d, (((in6Len ip).toNat + 40 : ℕ) : ℤ)) := by
  have hne : ¬ (6 : BitVec 4) = 4 := by decide
  have hturned : swap ip 8 24 16 = turned6 ip := rfl
  have hpayload : turned6 ip 40 = ip 40 := by
    unfold turned6 swap
    rw [Mem.put_of_ge (by rw [Mem.length_slice]; omega), Mem.put_of_ge (by rw [Mem.length_slice])]
  unfold loopbackDevice
  simp only [if_neg hmode, hver, if_neg hne, if_true, hturned]
  by_cases hicmp : turned6 ip 6 = 58
  · rw [if_pos hicmp]
    by_cases hecho : 12 ≤ (in6Len ip).toNat ∧ inChecksum (Mem.slice (turned6 ip) 40 (in6Len ip).toNat) = 0xffff ∧
        turned6 ip 40 = 8
    · have hdevice : icmpLoopback ⟨turned6 ip, seq⟩ 40 (in6Len ip).toNat =
          (⟨reply (turned6 ip) 40 (in6Len ip).toNat seq, seq + 1⟩, (in6Len ip).toNat) := if_pos hecho
      have hpos : 0 < (in6Len ip).toNat := by omega
      have hzero : reply (turned6 ip) 40 (in6Len ip).toNat seq 40 = 0 := by
        have hfirst : Mem.put (turned6 ip) 40 [0] (40 + 0) = 0 := Mem.put_of_mem (by decide)
        unfold reply
        rw [redo_of_ne (by omega), Mem.put_of_lt (by omega)]
        exact hfirst
      rw [hdevice, if_pos hpos]
      exact .inr ⟨hpayload.symm.trans hecho.2.2, hecho.1, _, hzero, rfl⟩
    · have hdevice : icmpLoopback ⟨turned6 ip, seq⟩ 40 (in6Len ip).toNat = (⟨turned6 ip, seq⟩, 0) := if_neg hecho
      rw [hdevice, if_neg (lt_irrefl 0)]
      exact .inl ⟨_, rfl⟩
  · rw [if_neg hicmp]
    refine .inl ⟨⟨turned6 ip, seq⟩, ?_⟩
    by_cases hudp : turned6 ip 6 = 17
    · rw [if_pos hudp]
      rfl
    · rw [if_neg hudp]
      rfl

/-- The host after the device returned a length that fits. -/
theorem send_of_device (isIp6 : Bool) {d : Device} {len : ℕ} (h : loopbackDevice env.loopbackMode env.loopbackHandler ⟨ip, s.echoSeqNum⟩ =
      (d, (len : ℤ))) (hmtu : len ≤ env.mtu) (hroom : pktqInIndex s.q ≠ s.q.outIndex.toNat) :
    0 < len ∧ (sendLoopback env s isIp6 ip).1.pool (pktqInBuf s.q) = frameOf env isIp6 d.mem len ∨
      len = 0 ∧ (sendLoopback env s isIp6 ip).1.q = s.q := by
  have hle : ¬ (env.mtu : ℤ) < (len : ℤ) := by omega
  unfold sendLoopback
  simp only [h, if_neg hle]
  rcases Nat.eq_zero_or_pos len with rfl | hpos
  · exact .inr ⟨rfl, rfl⟩
  · have hcast : (0 : ℤ) < (len : ℤ) := by omega
    simp only [if_pos hcast, if_neg hroom, Function.update_self, Int.toNat_natCast]
    exact .inl ⟨hpos, trivial⟩

/-- The length of the payload is too short, and padding is no source address. -/
theorem not_whole_short (h : Sendable env s true ip)
    (hpool : (sendLoopback env s true ip).1.pool (pktqInBuf s.q) = frameOf env true m (in6Len ip).toNat)
    (hpos : 0 < (in6Len ip).toNat) : ¬ Whole env s (sendLoopback env s true ip).1 true ip := by
  intro hwhole
  obtain ⟨f, hback, pad, heq⟩ := hwhole.frame h.macs hpool
  have htotal : total true ip = 40 + (in6Len ip).toNat := rfl
  have hlen := congrArg List.length heq
  rw [List.length_append, List.length_append, Mem.length_slice, Mem.length_slice, htotal] at hlen
  cases hserial : env.pktserial with
  | true =>
    rw [hserial] at hlen
    simp only [if_true, List.length_nil] at hlen
    omega
  | false =>
    rw [hserial] at hlen heq
    simp only [Bool.false_eq_true, if_false, List.length_replicate] at hlen heq
    -- byte 23 ends the source address, which is `::1`
    have hone : f 23 = 1 := by
      have hsrc := hback.source
      have hdst := h.loopback6 rfl
      unfold srcAt dstAt addrLen at hsrc
      simp only [if_true] at hsrc
      rw [hdst] at hsrc
      have hlast := congrArg (fun l : List Byte => l[15]?) hsrc
      simp only [Mem.getElem?_slice] at hlast
      exact Option.some.inj hlast
    have hbyte := congrArg (fun l : List Byte => l[23]?) heq
    rw [List.getElem?_append_left (by rw [Mem.length_slice, htotal]; omega), Mem.getElem?_slice, if_pos (by rw [htotal]; omega),
      List.getElem?_append_right (by rw [Mem.length_slice]; omega), Mem.length_slice,
      List.getElem?_replicate, if_pos (by omega), Nat.zero_add, hone] at hbyte
    exact absurd (Option.some.inj hbyte) (by decide)

/-- No IPv6 packet comes back. -/
theorem not_whole_ip6 (h : Sendable env s true ip) (hmode : env.loopbackMode &&& lbackModeEnable ≠ 0) :
    ¬ Whole env s (sendLoopback env s true ip).1 true ip := by
  have hmtu : 40 + (in6Len ip).toNat ≤ env.mtu := h.mtu
  rcases device_ip6 s.echoSeqNum hmode h.version with ⟨d, hdevice⟩ | ⟨htype, hlen, d, hzero, hdevice⟩
  · rw [← h.handler] at hdevice
    rcases send_of_device true hdevice (by omega) h.room with ⟨hpos, hpool⟩ | ⟨-, hsame⟩
    · exact not_whole_short h hpool hpos
    · intro hwhole
      exact advance_ne h.ring (hwhole.1.symm.trans hsame)
  · rw [← h.handler] at hdevice
    rcases send_of_device true hdevice (by omega) h.room with ⟨-, hpool⟩ | ⟨hnil, -⟩
    · intro hwhole
      rw [Nat.add_comm] at hpool
      obtain ⟨f, hback, hbytes⟩ := hwhole.bytes h.macs hpool
      have htotal : total true ip = 40 + (in6Len ip).toNat := rfl
      -- an IPv6 packet has no ICMPv4 echo request, so its payload has to be the same
      have hsame := hback.payload (fun he => Bool.noConfusion he.1) 40 le_rfl (by omega)
      rw [hbytes 40 (by omega), hzero, htype] at hsame
      exact absurd hsame (by decide)
    · omega

/-- Which packets come back whole. -/
theorem loopback_whole_iff (env : Env) (s : Host) (isIp6 : Bool) (ip : Packet) (h : Sendable env s isIp6 ip) :
    Whole env s (sendLoopback env s isIp6 ip).1 isIp6 ip ↔ Served env isIp6 ip := by
  by_cases hmode : env.loopbackMode &&& lbackModeEnable = 0
  · refine iff_of_false (fun hwhole => advance_ne h.ring (hwhole.1.symm.trans ?_)) fun hserved => hserved.1 hmode
    have hmtu : ¬ (env.mtu : ℤ) < -1 := by omega
    unfold sendLoopback
    simp only [device_disabled hmode, if_neg hmtu, if_neg (show ¬ (0 : ℤ) < -1 by omega)]
  cases isIp6 with
  | true => exact iff_of_false (not_whole_ip6 h hmode) fun hserved => Bool.noConfusion hserved.2.1
  | false =>
    obtain ⟨hvalid, hle, -⟩ := h.valid4 rfl
    obtain ⟨-, hhdr, -⟩ := of_decide_eq_true hvalid
    obtain ⟨hq, hpool⟩ := send_ip4 h hmode
    have hlt := (inLength ip).isLt
    constructor
    · intro hwhole
      refine ⟨hmode, rfl, fun hecho => ?_⟩
      by_contra hshort
      have hno : ¬ Answered ip := fun hans => hshort hans.2
      rw [if_neg hno] at hpool
      obtain ⟨f, hback, hbytes⟩ := hwhole.bytes h.macs hpool
      have hlen : 8 ≤ (inLength ip).toNat - inGetHdrLen ip := hecho.2.2.2.2.1
      have htype : f (inGetHdrLen ip) = 0 := (hback.echo hecho).type
      have hrequest : ip (inGetHdrLen ip) = 8 := hecho.2.2.2.1
      have hat : f (inGetHdrLen ip) = turned ip (inGetHdrLen ip) := hbytes _ (show _ < (inLength ip).toNat by omega)
      rw [htype, turned_of_ne (.inr hhdr), hrequest] at hat
      exact absurd hat (by decide)
    · rintro ⟨-, -, hlong⟩
      obtain ⟨mac, hmac, hframe⟩ := frameOf_eq false (if Answered ip then
        reply (turned ip) (inGetHdrLen ip) ((inLength ip).toNat - inGetHdrLen ip) s.echoSeqNum
        else turned ip) (inLength ip).toNat h.macs
      refine ⟨hq, mac, _, _, hmac, hpool.trans hframe, ?_⟩
      by_cases hans : Answered ip
      · rw [if_pos hans]
        have hlen := hans.2
        have hreply := reply_echo (m := turned ip) (x := inGetHdrLen ip) (n := (inLength ip).toNat) s.echoSeqNum
          (by omega) (by omega)
        refine cameBack_ip4 hhdr (fun i hi => reply_of_lt hi) (fun hno => absurd hans.1 hno) fun _ =>
          ⟨hreply.type, hreply.sum, hreply.sequence, fun i hx hi h0 h2 h3 h6 h7 => ?_⟩
        exact (hreply.rest i hx hi h0 h2 h3 h6 h7).trans (turned_of_ne (.inr (by omega)))
      · rw [if_neg hans]
        refine cameBack_ip4 hhdr (fun i hi => rfl) (fun _ i hi _ => turned_of_ne (.inr (by omega))) fun hecho => ?_
        exact absurd ⟨hecho, hlong hecho⟩ hans

/-- A host with an empty ring. -/
def host : Host where
  q := { inIndex := 0, outIndex := 0, bufSize := 1550, numBuf := 8, numDrop := 0, bufStart := 0 }
  pool := fun _ => []

/-- A datagram of 28 bytes to `127.0.0.1`. -/
def datagram : Packet := fun i =>
  ([0x45, 0, 0, 28, 0, 1, 0, 0, 64, 17, 0x7c, 0xce, 127, 0, 0, 1, 127, 0, 0, 1, 0, 7, 0, 9, 0, 8, 0, 0] : List Byte).getD i 0

theorem loopback_whole_datagram : Sendable {} host false datagram ∧
    Whole {} host (sendLoopback {} host false datagram).1 false datagram := by
  have h : Sendable {} host false datagram := {
    handler := rfl
    macs := ⟨rfl, rfl⟩
    ring := by decide
    room := by decide
    mtu := by decide
    version := by decide
    valid4 := fun _ => by decide
    loopback6 := fun h => Bool.noConfusion h }
  exact ⟨h, (loopback_whole_iff {} host false datagram h).mpr
    ⟨by decide, rfl, fun hecho => absurd hecho.2.2.1 (by decide)⟩⟩

/-- A datagram of 48 bytes to `::1`. -/
def datagram6 : Packet := fun i =>
  ([0x60, 0, 0, 0, 0, 8, 17, 64] ++ (List.replicate 15 0 ++ [1]) ++ (List.replicate 15 0 ++ [1]) ++
    [0, 7, 0, 9, 0, 8, 0xff, 0xcc] : List Byte).getD i 0

/-- Its frame has no more than 46 bytes behind the MAC header. -/
theorem datagram6_truncated : Sendable {} host true datagram6 ∧
    ¬ Whole {} host (sendLoopback {} host true datagram6).1 true datagram6 := by
  have h : Sendable {} host true datagram6 := {
    handler := rfl
    macs := ⟨rfl, rfl⟩
    ring := by decide
    room := by decide
    mtu := by decide
    version := by decide
    valid4 := fun h => Bool.noConfusion h
    loopback6 := fun _ => by decide }
  exact ⟨h, not_whole_ip6 h (by decide)⟩

end Watt32.Loopback
