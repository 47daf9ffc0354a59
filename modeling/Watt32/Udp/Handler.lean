import Watt32.Lib.OnesSum
import Watt32.Tcp.Family

/-!
# Received UDP datagrams

`_udp_handler` and `udp_demux` of `pctcp.c`, built with `USE_MULTICAST` and `USE_IPV6`, and the
checksums of `chksum.c` that they use.

* `UdpSocket`, `Globals`: what they read; `udpDemux`: the socket of a datagram.
* `udpChecksum`, `ip6UdpChecksum`: the tests of the sum.
* `udpHandler`: the handler; `processUser`: what becomes of the user data.
* `Verifies`: the ones'-complement sum over the pseudo header and the datagram, in network order.
* **`checksum_iff`**: when the handler takes exactly the datagrams that verify.
-/

namespace Watt32.Udp

open Tcp (Packet ver inGetHdrLen inLength in6Len sizeofIn6Header inChecksum readWord readDword
  packetOf)

/-- `_udp_Socket`: the fields that the handler reads or writes, but for the peer's MAC address.
`rxData` are the first `rx_datalen` bytes of the buffer. -/
structure UdpSocket where
  safetysig : Bool := true
  isIp6 : Bool := false
  myport : Word
  hisport : Word := 0
  myaddr : Dword := 0
  hisaddr : Dword := 0
  my6addr : List Byte := List.replicate 16 0
  his6addr : List Byte := List.replicate 16 0
  udpChk : Bool := true
  protoHandler : Bool := false
  rxData : List Byte := []
  maxRxData : ℕ := 2048
deriving DecidableEq

/-- The host's addresses. -/
structure Globals where
  myIpAddr : Dword := 0
  sinMask : Dword := 0xffffff00
  multihomes : Dword := 0
  in6addrMyIp : List Byte := List.replicate 16 0

/-! ## The datagram -/

/-- `udp`: where its header is. -/
def udpHead (ip : Packet) : ℕ := if ver ip = 4 then inGetHdrLen ip else sizeofIn6Header

/-- `intel16 (udp->length)`. -/
def udpLength (ip : Packet) : Word := readWord ip (udpHead ip + 4)

def srcPort (ip : Packet) : Word := readWord ip (udpHead ip)

def dstPort (ip : Packet) : Word := readWord ip (udpHead ip + 2)

def source (ip : Packet) : Dword := readDword ip 12

def destin (ip : Packet) : Dword := readDword ip 16

def ip6Src (ip : Packet) : List Byte := Mem.slice ip 8 16

def ip6Dst (ip : Packet) : List Byte := Mem.slice ip 24 16

/-- The header and the data. -/
def datagram (ip : Packet) : List Byte := Mem.slice ip (udpHead ip) (udpLength ip).toNat

/-- `IN6_IS_ADDR_UNSPECIFIED`. -/
def in6IsAddrUnspecified (a : List Byte) : Bool := a = List.replicate 16 0

/-- `IP_BCAST_ADDR`. -/
def ipBcastAddr : Dword := 0xffffffff

/-- `ip_bcast`. -/
def ipBcast (g : Globals) (broadcast : Bool) (ip : Packet) : Bool :=
  broadcast || if ver ip = 4 then ~~~destin ip &&& ~~~g.sinMask = 0 else ip 24 = 0xff

/-- `_ip4_is_multihome_addr`. -/
def ip4IsMultihomeAddr (g : Globals) (a : Dword) : Bool :=
  g.myIpAddr ≠ 0 ∧ ¬ a < g.myIpAddr ∧ a - g.myIpAddr ≤ g.multihomes

/-! ## The socket -/

/-- An active socket of the datagram. -/
def demuxActive (g : Globals) (bcast : Bool) (ip : Packet) (s : UdpSocket) : Bool :=
  bcast = false ∧ s.hisport ≠ 0 ∧ dstPort ip = s.myport ∧ srcPort ip = s.hisport ∧
    if s.isIp6 then ver ip ≠ 4 ∧ ip6Src ip = s.his6addr
    else ver ip = 4 ∧ destin ip &&& g.sinMask = s.myaddr &&& g.sinMask ∧ source ip = s.hisaddr

/-- A passive socket. -/
def demuxPassive (ip : Packet) (s : UdpSocket) : Bool :=
  dstPort ip = s.myport ∧
    if s.isIp6 then ver ip ≠ 4 ∧ in6IsAddrUnspecified s.his6addr
    else ver ip = 4 ∧ (s.hisaddr = 0 ∨ s.hisaddr = ipBcastAddr)

/-- A multicast socket. -/
def demuxMulticast (ip : Packet) (s : UdpSocket) : Bool :=
  ver ip = 4 ∧ s.hisport ≠ 0 ∧ s.hisaddr = destin ip ∧ dstPort ip = s.myport ∧
    (destin ip).extractLsb' 28 4 = 14

/-- A broadcast socket. -/
def demuxBroadcast (ip : Packet) (s : UdpSocket) : Bool :=
  dstPort ip = s.myport ∧
    if s.isIp6 ∧ ver ip ≠ 4 then in6IsAddrUnspecified s.his6addr
    else ver ip = 4 ∧ s.hisaddr = ipBcastAddr

/-- A passive socket that the datagram is for. -/
def takePeer (bcast : Bool) (ip : Packet) (s : UdpSocket) : UdpSocket :=
  if s.isIp6 then
    { s with
      his6addr := ip6Src ip
      hisport := srcPort ip
      my6addr := if bcast then s.my6addr else ip6Dst ip }
  else if s.hisaddr = 0 then
    { s with
      hisaddr := source ip
      hisport := srcPort ip
      myaddr := if bcast then s.myaddr else destin ip }
  else s

/-- What `udp_demux` gives: the list, the number of the socket, and `udp_err`. -/
structure Demux where
  socks : List UdpSocket
  found : Option ℕ := none
  udpErr : Bool := false

/-- `udp_demux`. -/
def udpDemux (g : Globals) (bcast : Bool) (ip : Packet) (socks : List UdpSocket) : Demux :=
  match socks.findIdx? fun s => !s.safetysig || demuxActive g bcast ip s with
  | some i =>
    if (socks[i]?.map (·.safetysig)).getD true then { socks := socks, found := some i }
    else { socks := socks.modify i fun s => { s with safetysig := true }, udpErr := true }
  | none =>
    match socks.findIdx? (demuxPassive ip) with
    | some i => { socks := socks.modify i (takePeer bcast ip), found := some i }
    | none =>
      match socks.findIdx? (demuxMulticast ip) with
      | some i => { socks := socks, found := some i }
      | none => { socks := socks, found := socks.findIdx? (demuxBroadcast ip) }

/-! ## The sums -/

/-- `udp_checksum`. The `checksum` of its pseudo header is the sum over the datagram. -/
def udpChecksum (ip : Packet) : Bool :=
  let sum := BitVec.ofNat 16 (inChecksum (datagram ip))
  inChecksum (Mem.slice ip 12 8 ++ [0, 17] ++ Mem.slice ip (udpHead ip + 4) 2 ++
    [sum.extractLsb' 0 8, sum.extractLsb' 8 8]) = 0xffff

/-- `_ip6_checksum` for UDP. -/
def ip6Checksum (ip : Packet) : ℕ :=
  let ph := Mem.slice ip 8 32 ++ Mem.slice ip (udpHead ip + 4) 2 ++ [0, 0, 0, 17]
  let chksum := inChecksum ph + inChecksum (datagram ip)
  let chksum := chksum / 65536 + chksum % 65536
  let chksum := chksum + chksum / 65536
  let chksum := 65535 - chksum % 65536
  if chksum = 0 then 65535 else chksum

/-- `_ip6_udp_checksum`. -/
def ip6UdpChecksum (ip : Packet) : Bool := ip6Checksum ip = 0xffff

/-! ## The handler -/

/-- What the handler leaves behind: the list, the socket it returns, the data it has processed, and
whether it has sent an ICMP message. -/
structure Handled where
  socks : List UdpSocket
  ret : Option ℕ := none
  handed : Option (List Byte) := none
  unreach : Bool := false

/-- The user data go to the `protoHandler`, or to the buffer. -/
def processUser (data : List Byte) (s : UdpSocket) : UdpSocket :=
  if s.protoHandler ∨ data = [] then s else { s with rxData := data.take s.maxRxData }

/-- Whether the sum lets the datagram pass. -/
def sumPasses (ip : Packet) (s : UdpSocket) : Bool :=
  if ver ip = 4 then
    ¬ (readWord ip (udpHead ip + 6) ≠ 0 ∧ s.udpChk = true ∧ udpChecksum ip = false)
  else ¬ ip6UdpChecksum ip = true

/-- Whether a datagram without a socket is answered. -/
def sendsUnreach (g : Globals) (bcast : Bool) (ip : Packet) : Bool :=
  bcast = false ∧ srcPort ip ≠ 53 ∧
    if ver ip ≠ 4 ∧ in6IsAddrUnspecified g.in6addrMyIp = false ∧ g.in6addrMyIp = ip6Dst ip then True
    else ver ip = 4 ∧ g.myIpAddr ≠ 0 ∧ ip4IsMultihomeAddr g (destin ip)

/-- `_udp_handler`. -/
def udpHandler (g : Globals) (broadcast : Bool) (ip : Packet) (socks : List UdpSocket) : Handled :=
  let bcast := ipBcast g broadcast ip
  if (udpLength ip).toNat < 8 then { socks := socks }
  else if dstPort ip = 0 ∨ srcPort ip = 0 then { socks := socks }
  else
    let d := udpDemux g bcast ip socks
    match d.found with
    | none =>
      { socks := d.socks, unreach := !d.udpErr && sendsUnreach g bcast ip }
    | some i =>
      if (d.socks[i]?.map (sumPasses ip)).getD false then
        { socks := d.socks.modify i (processUser ((datagram ip).drop 8)), ret := some i
          handed := some ((datagram ip).drop 8) }
      else { socks := d.socks, ret := some i }

/-! ## The law of the sum -/

/-- The pseudo header in network order. -/
def pseudoHeader (ip : Packet) : List Byte :=
  let len := Mem.slice ip (udpHead ip + 4) 2
  if ver ip = 4 then Mem.slice ip 12 8 ++ [0, 17] ++ len
  else Mem.slice ip 8 32 ++ [0, 0] ++ len ++ [0, 0, 0, 17]

/-- The ones'-complement sum over pseudo header and datagram is `0xFFFF`. -/
def Verifies (ip : Packet) : Prop := OnesSum.Ones (OnesSum.bigSum (pseudoHeader ip ++ datagram ip))

instance : DecidablePred Verifies := fun ip =>
  inferInstanceAs (Decidable (OnesSum.Ones (OnesSum.bigSum (pseudoHeader ip ++ datagram ip))))

/-- The lengths agree. -/
def Consistent (ip : Packet) : Prop :=
  8 ≤ (udpLength ip).toNat ∧
    if ver ip = 4 then (inLength ip).toNat = inGetHdrLen ip + (udpLength ip).toNat
    else (in6Len ip).toNat = (udpLength ip).toNat

instance : DecidablePred Consistent := fun _ => inferInstanceAs (Decidable (8 ≤ _ ∧ _))

/-- The handler takes the datagram exactly if it verifies. -/
def ChecksumExact (g : Globals) (broadcast : Bool) (ip : Packet) (socks : List UdpSocket) : Prop :=
  (ver ip = 4 → readWord ip (udpHead ip + 6) ≠ 0) →
    ((udpHandler g broadcast ip socks).handed.isSome = true ↔ Verifies ip)

section Sums

variable {ip : Packet}

open OnesSum

theorem inChecksum_sum (l : List Byte) : inChecksum.sum l = littleSum l := by
  induction l using littleSum.induct with
  | case1 a b rest ih => simp only [inChecksum.sum, littleSum, ih]
  | case2 a => rfl
  | case3 => rfl

theorem inChecksum_eq (l : List Byte) : inChecksum l = fold (fold (fold (littleSum l))) := by
  rw [← inChecksum_sum]
  rfl

theorem inChecksum_le {l : List Byte} (h : l.length ≤ 65536) : inChecksum l ≤ 65535 := by
  have hle := littleSum_le (l := l)
  have htwo : fold (fold (littleSum l)) ≤ 65535 := fold_fold_le (by omega)
  rw [inChecksum_eq]
  simp only [fold] at htwo ⊢
  omega

/-- The sum over a part may be added as it is. -/
theorem ones_add_inChecksum (k : ℕ) (l : List Byte) :
    Ones (k + inChecksum l) ↔ Ones (k + littleSum l) := by
  rw [inChecksum_eq]
  apply ones_add_congr
  · simp only [fold_mod]
  · simp only [fold_pos]

/-- A carried sum is `0xFFFF` when the words are all ones. -/
theorem inChecksum_eq_ones {l : List Byte} (h : l.length ≤ 65536) :
    inChecksum l = 65535 ↔ Ones (littleSum l) := by
  rw [← ones_iff_eq (inChecksum_le h), inChecksum_eq]
  simp only [ones_fold]

/-- Pseudo header and datagram are summed one after the other. -/
theorem verifies_iff (heven : (pseudoHeader ip).length % 2 = 0) :
    Verifies ip ↔ Ones (littleSum (pseudoHeader ip) + littleSum (datagram ip)) := by
  unfold Verifies
  rw [← ones_little, littleSum_append heven]

theorem length_datagram : (datagram ip).length ≤ 65535 := by
  simp only [datagram, Mem.length_slice]
  omega

/-- The two rounds of carries of `_ip6_checksum`, and its complement. -/
theorem complement_eq_ones {n : ℕ} (hpos : 0 < n) (hle : n ≤ 131070) :
    65535 - (n / 65536 + n % 65536 + (n / 65536 + n % 65536) / 65536) % 65536 = 0 ∨
      65535 - (n / 65536 + n % 65536 + (n / 65536 + n % 65536) / 65536) % 65536 = 65535 ↔ Ones n := by
  -- the carries come in once
  have hfold : n / 65536 + n % 65536 < 65536 := by omega
  rw [Nat.div_eq_of_lt hfold, Nat.add_zero, Nat.mod_eq_of_lt hfold, Ones]
  by_cases hlt : n < 65536
  · rw [Nat.div_eq_of_lt hlt, Nat.mod_eq_of_lt hlt]
    omega
  · have hsum : n / 65536 + n % 65536 = n - 65535 := by omega
    rw [hsum]
    omega

/-- The sum of a word that is written low byte first. -/
theorem littleSum_word (n : ℕ) (h : n ≤ 65535) :
    littleSum [(BitVec.ofNat 16 n).extractLsb' 0 8, (BitVec.ofNat 16 n).extractLsb' 8 8] = n := by
  simp [littleSum, BitVec.toNat_ofNat, Nat.shiftRight_eq_div_pow]
  omega

/-- **IPv4**: `udp_checksum` is true exactly if the datagram verifies. -/
theorem udpChecksum_iff (hver : ver ip = 4) : udpChecksum ip = true ↔ Verifies ip := by
  have hph : pseudoHeader ip = Mem.slice ip 12 8 ++ [0, 17] ++ Mem.slice ip (udpHead ip + 4) 2 :=
    if_pos hver
  have hlen : (pseudoHeader ip).length = 12 := by simp [hph]
  unfold udpChecksum
  rw [decide_eq_true_iff, ← hph, inChecksum_eq_ones (by simp [hlen]), verifies_iff (by simp [hlen]),
    littleSum_append (by simp [hlen]),
    littleSum_word _ (inChecksum_le (length_datagram.trans (by decide)))]
  exact ones_add_inChecksum _ _

/-- **IPv6**: `_ip6_udp_checksum` is true exactly if the datagram verifies. -/
theorem ip6UdpChecksum_iff (hver : ver ip ≠ 4) : ip6UdpChecksum ip = true ↔ Verifies ip := by
  set ph := Mem.slice ip 8 32 ++ Mem.slice ip (udpHead ip + 4) 2 ++ [0, 0, 0, 17] with hph
  have hspec : pseudoHeader ip =
      Mem.slice ip 8 32 ++ [0, 0] ++ Mem.slice ip (udpHead ip + 4) 2 ++ [0, 0, 0, 17] := if_neg hver
  have hlen : ph.length = 38 := by simp [hph]
  have hsum : littleSum (pseudoHeader ip) = littleSum ph := by
    rw [hspec, hph]
    rw [littleSum_append (by simp), littleSum_append (by simp), littleSum_append (by simp),
      littleSum_append (by simp), littleSum_append (by simp)]
    simp [littleSum]
  have hpos : 0 < littleSum ph := by
    rw [hph, littleSum_append (by simp)]
    simp [littleSum]
  have hle := inChecksum_le (l := ph) (by omega)
  have hle' := inChecksum_le (l := datagram ip) (length_datagram.trans (by decide))
  have hphpos : 0 < inChecksum ph := by
    rw [inChecksum_eq]
    simp only [fold_pos]
    exact hpos
  -- the two rounds of carries leave a word, which is not 0
  have hword : ip6UdpChecksum ip = true ↔ Ones (inChecksum ph + inChecksum (datagram ip)) := by
    unfold ip6UdpChecksum ip6Checksum
    rw [decide_eq_true_iff, ← hph, ← complement_eq_ones (by omega) (by omega)]
    dsimp only
    split_ifs with hzero
    · simp only [hzero, true_or]
    · simp only [hzero, false_or]
  rw [hword, verifies_iff (by simp [hspec]), hsum, ones_add_inChecksum, Nat.add_comm,
    ones_add_inChecksum, Nat.add_comm]

end Sums

section Handler

variable {g : Globals} {broadcast : Bool} {ip : Packet} {socks : List UdpSocket} {i : ℕ}

/-- Both ports are not 0. -/
def PortsOk (ip : Packet) : Prop := dstPort ip ≠ 0 ∧ srcPort ip ≠ 0

/-- A datagram of a socket is taken if its ports are not 0 and its sum lets it pass. -/
theorem handed_iff (hlen : 8 ≤ (udpLength ip).toNat) {s : UdpSocket}
    (hfound : (udpDemux g (ipBcast g broadcast ip) ip socks).found = some i)
    (hsock : (udpDemux g (ipBcast g broadcast ip) ip socks).socks[i]? = some s) :
    (udpHandler g broadcast ip socks).handed.isSome = true ↔
      PortsOk ip ∧ sumPasses ip s = true := by
  unfold udpHandler
  rw [if_neg (by omega)]
  by_cases hports : dstPort ip = 0 ∨ srcPort ip = 0
  · rw [if_pos hports]
    have hnot : ¬ PortsOk ip := fun h => hports.elim h.1 h.2
    simp [hnot]
  · rw [if_neg hports]
    have hok : PortsOk ip := ⟨fun h => hports (.inl h), fun h => hports (.inr h)⟩
    simp only [hfound, hsock, Option.map_some, Option.getD_some]
    by_cases hsum : sumPasses ip s = true
    · simp [hsum, hok]
    · simp [hsum]

/-- **The sum of a datagram**: the handler takes exactly the datagrams that verify, if over IPv4 the
ports are not 0 and the socket tests the sum or it verifies, or if a port is 0 and it does not
verify. Over IPv6 it takes those that do not verify. -/
theorem checksum_iff (g : Globals) (broadcast : Bool) (ip : Packet) (socks : List UdpSocket) (i : ℕ)
    (s : UdpSocket) (hlen : Consistent ip)
    (hfound : (udpDemux g (ipBcast g broadcast ip) ip socks).found = some i)
    (hsock : (udpDemux g (ipBcast g broadcast ip) ip socks).socks[i]? = some s) :
    ChecksumExact g broadcast ip socks ↔
      ver ip = 4 ∧ readWord ip (udpHead ip + 6) = 0 ∨
      ver ip = 4 ∧ PortsOk ip ∧ (s.udpChk = true ∨ Verifies ip) ∨ ¬ PortsOk ip ∧ ¬ Verifies ip := by
  unfold ChecksumExact
  rw [handed_iff hlen.1 hfound hsock]
  by_cases hver : ver ip = 4
  · have hsum := udpChecksum_iff hver
    have hpasses : sumPasses ip s = true ↔
        ¬ (readWord ip (udpHead ip + 6) ≠ 0 ∧ s.udpChk = true ∧ udpChecksum ip = false) := by
      unfold sumPasses
      rw [if_pos hver, decide_eq_true_iff]
    rw [hpasses, ← Bool.not_eq_true, hsum]
    tauto
  · have hsum := ip6UdpChecksum_iff hver
    have hpasses : sumPasses ip s = true ↔ ¬ ip6UdpChecksum ip = true := by
      unfold sumPasses
      rw [if_neg hver, decide_eq_true_iff]
    rw [hpasses, hsum]
    tauto

end Handler

/-! A byte 7 from port 1024 to port 7, over IPv4 and over IPv6. -/

/-- The IPv4 header of a datagram of 9 bytes, from 0.0.0.2 to 0.0.0.1. -/
def header4 : List Byte := [0x45, 0, 0, 29, 0, 0, 0, 0, 64, 17, 0, 0, 0, 0, 0, 2, 0, 0, 0, 1]

/-- The IPv6 header of a datagram of 9 bytes, from fe80::2 to fe80::1. -/
def header6 : List Byte :=
  [0x60, 0, 0, 0, 0, 9, 17, 64,
    0xfe, 0x80, 0, 0, 0, 0, 0, 0, 0, 0, 0, 0, 0, 0, 0, 2,
    0xfe, 0x80, 0, 0, 0, 0, 0, 0, 0, 0, 0, 0, 0, 0, 0, 1]

/-- The datagram with a checksum. -/
def byteDatagram (hi lo : Byte) : List Byte := [4, 0, 0, 7, 0, 9, hi, lo, 7]

/-- A socket that listens on port 7. -/
def echoSocket (isIp6 : Bool) : UdpSocket := { isIp6 := isIp6, myport := 7 }

/-- The datagram over IPv4. -/
def bytePacket4 : Packet := packetOf (header4 ++ byteDatagram 0xf4 0xd2)

/-- The datagram over IPv6. -/
def bytePacket6 : Packet := packetOf (header6 ++ byteDatagram 0xf7 0xd0)

/-- Over IPv4 it is taken as it should be. -/
theorem checksum_byte : ChecksumExact {} false bytePacket4 [echoSocket false] :=
  (checksum_iff {} false bytePacket4 [echoSocket false] 0
    (takePeer false bytePacket4 (echoSocket false)) (by decide +kernel) (by decide +kernel)
    (by decide +kernel)).mpr (.inr (.inl ⟨by decide, ⟨by decide, by decide⟩, .inl (by decide)⟩))

/-- Over IPv6 it verifies, and is not taken. -/
theorem checksum_fails : ¬ ∀ (g : Globals) (broadcast : Bool) (ip : Packet)
    (socks : List UdpSocket) (i : ℕ) (s : UdpSocket), Consistent ip →
    (udpDemux g (ipBcast g broadcast ip) ip socks).found = some i →
    (udpDemux g (ipBcast g broadcast ip) ip socks).socks[i]? = some s →
    ChecksumExact g broadcast ip socks := by
  intro hall
  have hexact := hall {} false bytePacket6 [echoSocket true] 0
    (takePeer false bytePacket6 (echoSocket true)) (by decide +kernel) (by decide +kernel)
    (by decide +kernel) (by decide)
  have hverifies : Verifies bytePacket6 := by decide +kernel
  have hrejected : (udpHandler {} false bytePacket6 [echoSocket true]).handed = none := by
    decide +kernel
  rw [hrejected] at hexact
  exact Bool.false_ne_true (hexact.mpr hverifies)

end Watt32.Udp
