import Watt32.Tcp.Tos

/-!
# Segments over IPv4 and IPv6

`_tcp_handler` takes the TCP header of an IPv6 packet from the list of its components. `_tcp_fsm`
would do so too under `NEED_SPLIT`, but `split.h` defines `NEED_PKT_SPLIT`: every packet is an IPv4
packet to it, and the traffic class of an IPv6 header is the length of the IPv4 header.

* `handlerTcp`, `handlerLen`, `fsmTcp`, `fsmLen`: where each finds the header, and the length.
* `accepts6`: the tests of `_tcp_handler` on an IPv6 packet.
* **`family_iff`**: when a segment over IPv6 is what it is over IPv4.
-/

namespace Watt32.Tcp

/-! ## Packets -/

/-- A packet from the first byte of its IP header on. -/
abbrev Packet := ℕ → Byte

/-- `ip->ver`. -/
def ver (ip : Packet) : BitVec 4 := (ip 0).extractLsb' 4 4

/-- `in_GetHdrLen`. -/
def inGetHdrLen (ip : Packet) : ℕ := 4 * ((ip 0).extractLsb' 0 4).toNat

/-- `intel16 (ip->length)`. -/
def inLength (ip : Packet) : Word := readWord ip 2

/-- `ip6->pri`, the upper half of the traffic class. -/
def in6Pri (ip : Packet) : BitVec 4 := (ip 0).extractLsb' 0 4

/-- The last two bytes of `ip6->flow_lbl`. -/
def in6FlowLbl (ip : Packet) : Word := readWord ip 2

/-- `intel16 (ip6->len)`. -/
def in6Len (ip : Packet) : Word := readWord ip 4

/-- `sizeof(in6_Header)`. -/
def sizeofIn6Header : ℕ := 40

/-- The bits of `tcp->flags` inside `tcp_FlagMASK`. -/
def flagsOf (b : Byte) : TcpFlags where
  fin := b.getLsbD 0
  syn := b.getLsbD 1
  rst := b.getLsbD 2
  push := b.getLsbD 3
  ack := b.getLsbD 4
  urg := b.getLsbD 5

/-- The `tcp_Header` at `tcp`. -/
def tcpHeaderAt (ip : Packet) (tcp : ℕ) : TcpHeader where
  srcPort := readWord ip tcp
  dstPort := readWord ip (tcp + 2)
  seqnum := readDword ip (tcp + 4)
  acknum := readDword ip (tcp + 8)
  offset := (ip (tcp + 12)).extractLsb' 4 4
  flags := flagsOf (ip (tcp + 13))
  window := readWord ip (tcp + 14)

/-- The segment with its header at `tcp` and the length `len`. -/
def segmentAt (ip : Packet) (tcp : ℕ) (len : ℤ) : InSegment where
  source := readDword ip 12
  destination := readDword ip 16
  tos := ip 1
  hdr := tcpHeaderAt ip tcp
  flagsHi := (ip (tcp + 13)).extractLsb' 6 2
  tcpLen := BitVec.ofInt 16 len
  mem := fun i => ip (tcp + i)

/-! ## Where the header is -/

/-- `pkt_get_type_in (TYPE_TCP_HEAD)->data`, as `split_ip4` and `split_ip6` set it. -/
def pktTcpHead (ip : Packet) : ℕ := if ver ip = 6 then sizeofIn6Header else inGetHdrLen ip

/-- `tcp` in `_tcp_handler`. -/
def handlerTcp (ip : Packet) : ℕ := if ver ip = 4 then inGetHdrLen ip else pktTcpHead ip

/-- `len` in `_tcp_handler`. -/
def handlerLen (ip : Packet) : ℤ :=
  if ver ip = 4 then (inLength ip).toNat - inGetHdrLen ip else (in6Len ip).toNat

/-- Whether `NEED_SPLIT` is defined. No file does. -/
def needSplit : Bool := false

/-- `tcp` in `_tcp_fsm`. -/
def fsmTcp (ip : Packet) : ℕ := if needSplit then pktTcpHead ip else inGetHdrLen ip

/-- `is_ip4` in `tcp_fsm.c`. -/
def isIp4 (ip : Packet) : Bool := if needSplit then ver ip = 4 else true

/-- `len` in the state functions. -/
def fsmLen (ip : Packet) : ℤ :=
  if isIp4 ip then (inLength ip).toNat - inGetHdrLen ip else (in6Len ip).toNat

/-- The segment as `_tcp_handler` sees it. -/
def handlerSegment (ip : Packet) : InSegment := segmentAt ip (handlerTcp ip) (handlerLen ip)

/-- The segment as the state functions see it. -/
def fsmSegment (ip : Packet) : InSegment := segmentAt ip (fsmTcp ip) (fsmLen ip)

/-- `_tcp_handler` with the control block that the segment is for, from the test for a reset on. -/
def tcpInput (e : Env) (c : Conn) (ip : Packet) : Conn :=
  afterFsm e (tcpFsm e (beforeFsm e c (handlerSegment ip)) (fsmSegment ip))

/-! ## What `_tcp_handler` accepts -/

/-- `in_checksum`: the sum of the words, the carries added. -/
def inChecksum (bytes : List Byte) : ℕ :=
  let rec sum : List Byte → ℕ
    | a :: b :: rest => a.toNat + 256 * b.toNat + sum rest
    | [a] => a.toNat
    | [] => 0
  let fold (s : ℕ) : ℕ := s % 65536 + s / 65536
  fold (fold (fold (sum bytes)))

/-- `_ip6_checksum` for a TCP segment. -/
def ip6Checksum (ip : Packet) (tcp len : ℕ) : ℕ :=
  let ph := Mem.slice ip 8 32 ++
    [(BitVec.ofNat 16 len).extractLsb' 8 8, (BitVec.ofNat 16 len).extractLsb' 0 8, 0, 0, 0, 6]
  let chksum := inChecksum ph + inChecksum (Mem.slice ip tcp len)
  let chksum := chksum / 65536 + chksum % 65536
  let chksum := (chksum + chksum / 65536) % 65536
  if 65535 - chksum = 0 then 65535 else 65535 - chksum

/-- The tests of `_tcp_handler` on an IPv6 packet, which is not broadcast: `IN6_IS_ADDR_LINKLOCAL`,
`IN6_IS_ADDR_MULTICAST` and `_ip6_tcp_checksum`. -/
def accepts6 (ip : Packet) : Bool :=
  ip 24 = 0xfe ∧ ip 25 &&& 0xc0 = 0x80 ∧ ip 8 ≠ 0xff ∧
    ip6Checksum ip (handlerTcp ip) (in6Len ip).toNat = 65535

/-! ## The same segment over IPv4 -/

/-- An IPv4 packet with the segment of `ip`. -/
structure CarriesSame (ip4 ip : Packet) : Prop where
  ver : ver ip4 = 4
  len : handlerLen ip4 = handlerLen ip
  mem : ∀ i, ip4 (handlerTcp ip4 + i) = ip (handlerTcp ip + i)

/-- The state functions act on the header that `_tcp_handler` has found, and so on its numbers, on
the length where they compute it, and the control block becomes what it becomes over IPv4. -/
structure FamilyIndependent (e : Env) (c : Conn) (ip : Packet) : Prop where
  header : c.s.state ≠ .closed → fsmTcp ip = handlerTcp ip
  len : takesLen c.s (handlerSegment ip).hdr = true → fsmLen ip = handlerLen ip
  outcome : ∀ ip4, CarriesSame ip4 ip →
    (tcpInput e c ip).erase.s = (tcpInput e c ip4).erase.s

section Family

variable {e : Env} {c : Conn} {ip ip4 : Packet}

theorem fsmTcp_of_ver (h : ver ip = 4) : fsmTcp ip = handlerTcp ip := by
  unfold handlerTcp
  rw [if_pos h]
  rfl

theorem fsmLen_of_ver (h : ver ip = 4) : fsmLen ip = handlerLen ip := by
  unfold handlerLen
  rw [if_pos h]
  rfl

/-- Over IPv4 both see one segment. -/
theorem fsmSegment_of_ver (h : ver ip = 4) : fsmSegment ip = handlerSegment ip := by
  unfold fsmSegment handlerSegment
  rw [fsmTcp_of_ver h, fsmLen_of_ver h]

/-- The header is in the bytes from `tcp` on. -/
theorem segmentAt_sameTcp {tcp tcp4 : ℕ} {len len4 : ℤ}
    (hmem : ∀ i, ip4 (tcp4 + i) = ip (tcp + i)) :
    (segmentAt ip tcp len).SameTcp (segmentAt ip4 tcp4 len4) := by
  refine ⟨?_, ?_, ?_⟩
  · have hfirst : ip4 tcp4 = ip tcp := hmem 0
    unfold segmentAt tcpHeaderAt readWord readDword
    simp only [Nat.add_assoc, Nat.reduceAdd, hmem, hfirst]
  · exact congrArg (BitVec.extractLsb' 6 2) (hmem 13).symm
  · exact funext fun i => (hmem i).symm

theorem beforeFsm_congr {seg seg' : InSegment} (h : seg.hdr = seg'.hdr) :
    beforeFsm e c seg = beforeFsm e c seg' := by
  unfold beforeFsm
  rw [h]

@[simp] theorem takesLen_beforeFsm (seg : InSegment) (hdr : TcpHeader) :
    takesLen (beforeFsm e c seg).s hdr = takesLen c.s hdr := rfl

/-- The end of `_tcp_handler` does not look at the type of service. -/
theorem afterFsm_congr {r r' : Conn × Bool} (h : r.1.erase = r'.1.erase) (hret : r.2 = r'.2) :
    (afterFsm e r).erase = (afterFsm e r').erase := by
  have hunhappy : r.1.s.unhappy = r'.1.s.unhappy :=
    (congrArg (fun c : Conn => c.s.unhappy) h :)
  unfold afterFsm
  rw [hret, hunhappy]
  by_cases hsoon : r'.2 = true ∧ r'.1.s.unhappy = true
  · rw [if_pos hsoon, if_pos hsoon]
    exact blind_tcpSendsoon.congr h
  · rw [if_neg hsoon, if_neg hsoon]
    exact h

/-- When the state functions see the segment, the family makes no difference. -/
theorem tcpInput_congr (hheader : c.s.state ≠ .closed → fsmTcp ip = handlerTcp ip)
    (hlen : takesLen c.s (handlerSegment ip).hdr = true → fsmLen ip = handlerLen ip)
    (h : CarriesSame ip4 ip) : (tcpInput e c ip).erase = (tcpInput e c ip4).erase := by
  have hsame : (handlerSegment ip).SameTcp (handlerSegment ip4) := segmentAt_sameTcp h.mem
  unfold tcpInput
  rw [beforeFsm_congr hsame.hdr, fsmSegment_of_ver h.ver]
  by_cases hclosed : c.s.state = .closed
  · have hfsm : ∀ seg, tcpFsm e (beforeFsm e c (handlerSegment ip4)) seg =
        (beforeFsm e c (handlerSegment ip4), false) := by
      intro seg
      unfold tcpFsm
      rw [show (beforeFsm e c (handlerSegment ip4)).s.state = c.s.state from rfl, hclosed]
    rw [hfsm, hfsm]
  · have hseg : (fsmSegment ip).SameTcp (handlerSegment ip4) := by
      unfold fsmSegment
      rw [hheader hclosed]
      exact segmentAt_sameTcp h.mem
    refine (tcpFsm_congr hseg fun htakes => ?_).elim afterFsm_congr
    rw [takesLen_beforeFsm, ← hsame.hdr] at htakes
    show BitVec.ofInt 16 (fsmLen ip) = BitVec.ofInt 16 (handlerLen ip4)
    rw [hlen htakes, h.len]

end Family

/-! A segment of one byte, over IPv6 and over IPv4. -/

/-- The bytes of a packet. -/
def packetOf (bytes : List Byte) : Packet := fun i => bytes.getD i 0

theorem packetOf_append (header bytes : List Byte) (i : ℕ) :
    packetOf (header ++ bytes) (header.length + i) = packetOf bytes i := by
  unfold packetOf
  rw [List.getD_eq_getElem?_getD, List.getElem?_append_right (Nat.le_add_right _ _),
    Nat.add_sub_cancel_left, List.getD_eq_getElem?_getD]

/-- The IPv6 header of a segment of 21 bytes, from fe80::2 to fe80::1. -/
def header6 (pri : BitVec 4) (flow : Word) : List Byte :=
  [(6 : BitVec 4) ++ pri, 0, flow.extractLsb' 8 8, flow.extractLsb' 0 8, 0, 21, 6, 64,
    0xfe, 0x80, 0, 0, 0, 0, 0, 0, 0, 0, 0, 0, 0, 0, 0, 2,
    0xfe, 0x80, 0, 0, 0, 0, 0, 0, 0, 0, 0, 0, 0, 0, 0, 1]

/-- The IPv4 header of a segment of 21 bytes, from 0.0.0.2 to 0.0.0.1. -/
def header4 : List Byte := [0x45, 0, 0, 41, 0, 0, 0, 0, 64, 6, 0, 0, 0, 0, 0, 2, 0, 0, 0, 1]

/-- A byte 7 at 1000 with an ACK, from port 80 to port 1024. -/
def byteSegment : List Byte :=
  [0, 80, 4, 0, 0, 0, 3, 0xe8, 0, 0, 0, 1, 0x50, 0x10, 0x10, 0, 147, 150, 0, 0, 7]

/-- **A segment over IPv6 is what it is over IPv4** exactly if the connection is closed, or the
upper half of the traffic class is 10 and, where the state function computes the length, the flow
label ends in the length of the packet. -/
theorem family_iff (e : Env) (c : Conn) (ip : Packet) (h6 : ver ip = 6) :
    FamilyIndependent e c ip ↔ c.s.state = .closed ∨
      in6Pri ip = 10 ∧ (takesLen c.s (handlerSegment ip).hdr = true →
        (in6FlowLbl ip).toNat = (in6Len ip).toNat + sizeofIn6Header) := by
  have htcp : fsmTcp ip = handlerTcp ip ↔ in6Pri ip = 10 := by
    unfold handlerTcp pktTcpHead
    rw [h6, if_neg (by decide), if_pos rfl, ← BitVec.toNat_inj]
    show 4 * (in6Pri ip).toNat = 40 ↔ (in6Pri ip).toNat = 10
    omega
  have hlen : in6Pri ip = 10 → (fsmLen ip = handlerLen ip ↔
      (in6FlowLbl ip).toNat = (in6Len ip).toNat + sizeofIn6Header) := by
    intro hpri
    have hhdr : inGetHdrLen ip = sizeofIn6Header := by
      show 4 * (in6Pri ip).toNat = 40
      rw [hpri]
      rfl
    unfold handlerLen
    rw [h6, if_neg (by decide)]
    show ((in6FlowLbl ip).toNat : ℤ) - inGetHdrLen ip = (in6Len ip).toNat ↔ _
    rw [hhdr]
    omega
  constructor
  · intro h
    by_cases hclosed : c.s.state = .closed
    · exact .inl hclosed
    · have hpri := htcp.mp (h.header hclosed)
      exact .inr ⟨hpri, fun htakes => (hlen hpri).mp (h.len htakes)⟩
  · rintro (hclosed | ⟨hpri, hflow⟩)
    · have hheader : c.s.state ≠ .closed → fsmTcp ip = handlerTcp ip := fun h => absurd hclosed h
      have hlen' : takesLen c.s (handlerSegment ip).hdr = true → fsmLen ip = handlerLen ip := by
        intro htakes
        unfold takesLen at htakes
        rw [hclosed] at htakes
        exact absurd htakes Bool.false_ne_true
      exact ⟨hheader, hlen', fun ip4 h => congrArg Conn.s (tcpInput_congr hheader hlen' h)⟩
    · have hheader : c.s.state ≠ .closed → fsmTcp ip = handlerTcp ip := fun _ => htcp.mpr hpri
      have hlen' : takesLen c.s (handlerSegment ip).hdr = true → fsmLen ip = handlerLen ip :=
        fun htakes => (hlen hpri).mpr (hflow htakes)
      exact ⟨hheader, hlen', fun ip4 h => congrArg Conn.s (tcpInput_congr hheader hlen' h)⟩

/-- The byte with a traffic class of 0xa0 and the flow label 61. -/
theorem family_class10 :
    FamilyIndependent {} (establishedConn []) (packetOf (header6 10 61 ++ byteSegment)) :=
  (family_iff {} (establishedConn []) (packetOf (header6 10 61 ++ byteSegment)) (by decide)).mpr
    (.inr ⟨by decide, fun _ => by decide⟩)

/-- An ordinary IPv6 packet, which `_tcp_handler` accepts: the byte that arrives over IPv4 does not
arrive. -/
theorem family_fails :
    accepts6 (packetOf (header6 0 0 ++ byteSegment)) = true ∧
    CarriesSame (packetOf (header4 ++ byteSegment)) (packetOf (header6 0 0 ++ byteSegment)) ∧
    (tcpInput {} (establishedConn []) (packetOf (header4 ++ byteSegment))).s.rx.rxDatalen = 1 ∧
    (tcpInput {} (establishedConn []) (packetOf (header6 0 0 ++ byteSegment))).s.rx.rxDatalen = 0 ∧
    ¬ FamilyIndependent {} (establishedConn []) (packetOf (header6 0 0 ++ byteSegment)) := by
  refine ⟨by decide +kernel, ⟨by decide, by decide, fun i => ?_⟩, by decide +kernel,
    by decide +kernel, fun h => absurd (h.header (by decide)) (by decide)⟩
  have h4 := packetOf_append header4 byteSegment i
  have h6 := packetOf_append (header6 0 0) byteSegment i
  exact h4.trans h6.symm

end Watt32.Tcp
