import Mathlib.Data.List.TakeWhile
import Watt32.Udp.Handler

/-!
# Sending in fragments

`_ip4_send_fragments` of `ip4_out.c`: the loop over the fragments, with the functions that put the
protocol header into the first one.

* `UdpSock`, `TcpSock`: what `make_udp_pkt` and `make_tcp_pkt` read; `protoHeader`: their headers.
* `ip4Output`: the header fields of a fragment; `sendLoop`, `ip4SendFragments`: the loop.
* `Tiles`: fragments that cut a datagram as they should.
* `sendLoop_eq`: the fragments in closed form; **`fragments_iff`**: when they tile the datagram.
-/

namespace Watt32.Ip

open Tcp (inChecksum)

/-- The bytes of a word in network order. -/
def bytes16 (w : Word) : List Byte := [w.extractLsb' 8 8, w.extractLsb' 0 8]

/-- The bytes of a double word in network order. -/
def bytes32 (d : Dword) : List Byte := bytes16 (d.extractLsb' 16 16) ++ bytes16 (d.extractLsb' 0 16)

/-- The bytes of a word as it lies in memory. -/
def stored16 (w : Word) : List Byte := [w.extractLsb' 0 8, w.extractLsb' 8 8]

/-- `IP_MF` and `IP_DF`, and `IP_OFFMASK`. -/
def ipMf : Word := 0x2000

def ipDf : Word := 0x4000

def ipOffmask : Word := 0x1fff

/-- The protocols of the `switch`. -/
def icmpProto : Byte := 1

def tcpProto : Byte := 6

def udpProto : Byte := 17

/-- The UDP socket of `make_udp_pkt`. -/
structure UdpSock where
  myport : Word := 0
  hisport : Word := 0
  myaddr : Dword := 0
  hisaddr : Dword := 0
  udpChk : Bool := true

/-- The TCP socket of `make_tcp_pkt`; `seqnum` is `send_next + send_una`. -/
structure TcpSock where
  estab : Bool := false
  myport : Word := 0
  hisport : Word := 0
  seqnum : Dword := 0
  recvNext : Dword := 0
  window : Word := 0
  flags : Byte := 0
  myaddr : Dword := 0
  hisaddr : Dword := 0

/-- `sock_type`. -/
structure Sock where
  udp : UdpSock := {}
  tcp : TcpSock := {}

/-! ## Protocol headers -/

/-- `~CHECKSUM (&ph, sizeof(ph))` of a pseudo header with `sum` in its `checksum`. -/
def pseudoChecksum (src dst : Dword) (proto : Byte) (length sum : Word) : Word :=
  ~~~BitVec.ofNat 16 (inChecksum
    (bytes32 src ++ bytes32 dst ++ [0, proto] ++ bytes16 length ++ stored16 sum))

/-- The header that `make_udp_pkt` puts into the first fragment. -/
def udpHeader (s : UdpSock) (buf : List Byte) : List Byte :=
  let length := BitVec.ofNat 16 (8 + buf.length)
  let hdr (checksum : Word) := bytes16 s.myport ++ bytes16 s.hisport ++ bytes16 length ++
    stored16 checksum
  if s.udpChk then
    hdr (pseudoChecksum s.myaddr s.hisaddr udpProto length
      (BitVec.ofNat 16 (inChecksum (hdr 0) + inChecksum buf)))
  else hdr 0

/-- The header that `make_tcp_pkt` puts into the first fragment. -/
def tcpHeader (s : TcpSock) : List Byte :=
  let hdr (checksum : Word) := bytes16 s.myport ++ bytes16 s.hisport ++ bytes32 s.seqnum ++
    bytes32 s.recvNext ++ [0x50, s.flags] ++ bytes16 s.window ++ stored16 checksum ++ [0, 0]
  hdr (pseudoChecksum s.myaddr s.hisaddr tcpProto 20 (BitVec.ofNat 16 (inChecksum (hdr 0))))

/-- The header in front of the data, for a protocol that can be sent. -/
def protoHeader (s : Sock) (proto : Byte) (buf : List Byte) : Option (List Byte) :=
  if proto = icmpProto then some []
  else if proto = udpProto then some (udpHeader s.udp buf)
  else if proto = tcpProto then if s.tcp.estab then some (tcpHeader s.tcp) else none
  else none

/-! ## The loop -/

/-- A fragment as `_ip4_output` hands it to `_eth_send`; the fields are in host order. -/
structure Fragment where
  length : Word
  identification : Word
  fragOfs : Word
  proto : Byte
  destination : Dword
  payload : List Byte
deriving DecidableEq

/-- The offset in bytes. -/
def Fragment.offset (f : Fragment) : ℕ := 8 * (f.fragOfs &&& ipOffmask).toNat

/-- More fragments follow. -/
def Fragment.mf (f : Fragment) : Bool := f.fragOfs &&& ipMf ≠ 0

/-- The configuration and the outcome of the calls: `_mtu`, `_ip4_dont_frag`, the identifier,
whether `_arp_resolve` finds the host, and whether `_eth_send` sends a fragment. -/
structure Out where
  mtu : ℕ := 1500
  dontFrag : Bool := false
  ipId : Word := 0
  dest : Dword := 0
  arpOk : Bool := true
  ethOk : ℕ → Bool := fun _ => true

/-- `ip_max`. -/
def Out.ipMax (o : Out) : ℕ := (o.mtu - 20) % 65536

/-- `num_frags`. -/
def Out.numFrags (o : Out) (len : ℕ) : ℕ :=
  len / o.ipMax + if len % o.ipMax ≠ 0 then 1 else 0

/-- `_ip4_output` for a fragment with `data` behind its IP header. -/
def ip4Output (o : Out) (proto : Byte) (fragOfs : Word) (data : List Byte) : Fragment where
  length := BitVec.ofNat 16 (20 + data.length)
  identification := o.ipId
  fragOfs := if o.dontFrag then fragOfs ||| ipDf else fragOfs
  proto := proto
  destination := o.dest
  payload := data

/-- The last `n` of `num` turns, at `frag_ofs` and with `len` bytes left. `hdr` is the header of the
first fragment: its length is not part of `frag_size`. -/
def sendLoop (o : Out) (proto : Byte) (hdr buf : List Byte) (num : ℕ) :
    (n fragOfs len : ℕ) → List Fragment × ℤ
  | 0, _, _ => ([], 0)
  | n + 1, fragOfs, len =>
    let fragSize := if n = 0 then len else o.ipMax
    let ofs := BitVec.ofNat 16 (fragOfs / 8) ||| if n = 0 then 0 else ipMf
    let data := ((if fragOfs = 0 then hdr else []) ++ (buf.drop fragOfs).take fragSize).take fragSize
    if o.ethOk (num - (n + 1)) then
      let r := sendLoop o proto hdr buf num n (fragOfs + fragSize) (len - fragSize)
      (ip4Output o proto ofs data :: r.1, if r.2 < 0 then -1 else r.2 + fragSize)
    else ([], -1)

/-- `_ip4_send_fragments`: the fragments sent, and what it returns. -/
def ip4SendFragments (o : Out) (s : Sock) (proto : Byte) (buf : List Byte) : List Fragment × ℤ :=
  match protoHeader s proto buf with
  | none => ([], 0)
  | some hdr =>
    if proto = icmpProto ∧ o.arpOk = false then ([], -1)
    else
      sendLoop o proto hdr buf (o.numFrags buf.length) (o.numFrags buf.length) 0 buf.length

/-! ## Fragments that tile a datagram -/

/-- The fragments tile `content` exactly once and carry its bytes; all but the last have `MF` and a
multiple of 8 bytes. -/
structure Tiles (content : List Byte) (frags : List Fragment) : Prop where
  inside : ∀ f ∈ frags, f.offset + f.payload.length ≤ content.length
  once : ∀ x < content.length, ∃! k : ℕ, ∃ f : Fragment, frags[k]? = some f ∧ f.offset ≤ x ∧
    x < f.offset + f.payload.length
  more : ∀ (k : ℕ) (f : Fragment), frags[k]? = some f → k + 1 < frags.length →
    f.mf = true ∧ f.payload.length % 8 = 0
  last : ∀ f, frags.getLast? = some f → f.mf = false
  bytes : ∀ f ∈ frags, f.payload = (content.drop f.offset).take f.payload.length

/-- What is to be sent: the protocol header and the data. -/
def content (s : Sock) (proto : Byte) (buf : List Byte) : List Byte :=
  (protoHeader s proto buf).getD [] ++ buf

/-! ## The field `frag_ofs` -/

section FragOfs

variable {w : Word}

theorem and_offmask (h : w.toNat < 8192) : w &&& ipOffmask = w := by
  apply BitVec.eq_of_toNat_eq
  rw [BitVec.toNat_and]
  exact Nat.and_two_pow_sub_one_of_lt_two_pow (n := 13) h

theorem and_flag (h : w.toNat < 8192) {m : Word} (hm : ipOffmask &&& m = 0) : w &&& m = 0 := by
  rw [← and_offmask h, BitVec.and_assoc, hm]
  exact BitVec.and_zero

/-- The offset is not touched by the flags. -/
theorem fragOfs_offmask (h : w.toNat < 8192) (last df : Bool) :
    (if df then (w ||| if last then 0 else ipMf) ||| ipDf else w ||| if last then 0 else ipMf) &&&
      ipOffmask = w := by
  have hw := and_offmask h
  cases last <;> cases df <;> simp [BitVec.and_or_distrib_right, hw] <;>
    simp [ipMf, ipDf, ipOffmask]

/-- `MF` is set in all but the last. -/
theorem fragOfs_mf (h : w.toNat < 8192) (last df : Bool) :
    (if df then (w ||| if last then 0 else ipMf) ||| ipDf else w ||| if last then 0 else ipMf) &&&
      ipMf = if last then 0 else ipMf := by
  have hw := and_flag h (m := ipMf) (by decide)
  cases last <;> cases df <;> simp [BitVec.and_or_distrib_right, hw] <;> simp [ipMf, ipDf]

end FragOfs

/-! ## The fragments in closed form -/

section Loop

variable {o : Out} {s : Sock} {proto : Byte} {hdr buf : List Byte} {num k n i : ℕ}

/-- The size of fragment `k`. -/
def fragSize (o : Out) (buf : List Byte) (num k : ℕ) : ℕ :=
  if k + 1 = num then buf.length - k * o.ipMax else o.ipMax

/-- Fragment `k`. -/
def fragAt (o : Out) (proto : Byte) (hdr buf : List Byte) (num k : ℕ) : Fragment :=
  ip4Output o proto (BitVec.ofNat 16 (k * o.ipMax / 8) ||| if k + 1 = num then 0 else ipMf)
    (((if k * o.ipMax = 0 then hdr else []) ++
      (buf.drop (k * o.ipMax)).take (fragSize o buf num k)).take (fragSize o buf num k))

/-- The turns send fragments until one is not sent. -/
theorem sendLoop_eq (hi : i + n = num) :
    (sendLoop o proto hdr buf num n (i * o.ipMax) (buf.length - i * o.ipMax)).1 =
      ((List.range' i n).takeWhile o.ethOk).map (fragAt o proto hdr buf num) := by
  induction n generalizing i with
  | zero => rfl
  | succ n ih =>
    have hnum : num - (n + 1) = i := by omega
    have hlast : n = 0 ↔ i + 1 = num := by omega
    simp only [sendLoop, hnum, List.range'_succ, List.takeWhile_cons, hlast]
    by_cases hok : o.ethOk i = true
    · simp only [if_pos hok, List.map_cons]
      refine congrArg₂ List.cons rfl ?_
      by_cases hn : i + 1 = num
      · obtain rfl : n = 0 := by omega
        rfl
      · rw [if_neg hn, ← ih (by omega)]
        congr 2
        · ring
        · rw [Nat.add_mul, Nat.one_mul, Nat.sub_sub]
    · simp [hok]

/-- The fragments that are sent are the first ones. -/
theorem takeWhile_range (p : ℕ → Bool) (n : ℕ) : ∃ j ≤ n, (List.range n).takeWhile p = List.range j ∧
    (j = n ↔ ∀ k < n, p k = true) := by
  have hpre := List.takeWhile_prefix p (l := List.range n)
  have hlen : ((List.range n).takeWhile p).length ≤ n := by
    simpa using hpre.length_le
  have htake := List.prefix_iff_eq_take.mp hpre
  rw [List.take_range, Nat.min_eq_left hlen] at htake
  refine ⟨_, hlen, htake, fun hall => ?_, fun hall => ?_⟩
  · rw [hall] at htake
    simpa using List.takeWhile_eq_self_iff.mp htake
  · have hself : (List.range n).takeWhile p = List.range n :=
      List.takeWhile_eq_self_iff.mpr (by simpa using hall)
    rw [hself, List.length_range]

/-- Which fragments are sent. -/
theorem frags_eq (hproto : protoHeader s proto buf = some hdr)
    (harp : ¬ (proto = icmpProto ∧ o.arpOk = false)) :
    ∃ j ≤ o.numFrags buf.length, (ip4SendFragments o s proto buf).1 =
        (List.range j).map (fragAt o proto hdr buf (o.numFrags buf.length)) ∧
      (j = o.numFrags buf.length ↔ ∀ k < o.numFrags buf.length, o.ethOk k = true) := by
  obtain ⟨j, hle, hrange, hall⟩ := takeWhile_range o.ethOk (o.numFrags buf.length)
  refine ⟨j, hle, ?_, hall⟩
  have hloop : (sendLoop o proto hdr buf (o.numFrags buf.length) (o.numFrags buf.length)
      (0 * o.ipMax) (buf.length - 0 * o.ipMax)).1 = _ := sendLoop_eq (Nat.zero_add _)
  rw [Nat.zero_mul, Nat.sub_zero, ← List.range_eq_range', hrange] at hloop
  simp only [ip4SendFragments, hproto, if_neg harp, hloop]

end Loop

/-! ## Where the fragments are -/

section Sizes

variable {o : Out} {proto : Byte} {hdr buf : List Byte} {k : ℕ}

/-- There are at least two fragments, and the last one is not empty. -/
theorem numFrags_spec (hmax : 0 < o.ipMax) (hlen : o.ipMax < buf.length) :
    2 ≤ o.numFrags buf.length ∧ (o.numFrags buf.length - 1) * o.ipMax < buf.length ∧
      buf.length ≤ o.numFrags buf.length * o.ipMax := by
  have hdiv := Nat.div_add_mod buf.length o.ipMax
  have hmod := Nat.mod_lt buf.length hmax
  have hone : 1 ≤ buf.length / o.ipMax := (Nat.one_le_div_iff hmax).mpr hlen.le
  rw [Nat.mul_comm] at hdiv
  unfold Out.numFrags
  by_cases hz : buf.length % o.ipMax = 0
  · have htwo : 2 ≤ buf.length / o.ipMax := by
      by_contra hnot
      have hq : buf.length / o.ipMax = 1 := by omega
      rw [hq, hz] at hdiv
      omega
    have hsub : (buf.length / o.ipMax - 1) * o.ipMax = buf.length / o.ipMax * o.ipMax - o.ipMax := by
      rw [Nat.sub_mul, Nat.one_mul]
    simp only [hz, ne_eq, not_true, if_false, Nat.add_zero]
    omega
  · simp only [ne_eq, hz, not_false_eq_true, if_true, Nat.add_sub_cancel, Nat.add_mul, Nat.one_mul]
    omega

theorem mul_ipMax_le {a b : ℕ} (h : a ≤ b) : a * o.ipMax ≤ b * o.ipMax := Nat.mul_le_mul_right _ h

/-- Fragment `k` ends with the data at the latest. -/
theorem fragSize_le (hmax : 0 < o.ipMax) (hlen : o.ipMax < buf.length)
    (hk : k < o.numFrags buf.length) :
    k * o.ipMax + fragSize o buf (o.numFrags buf.length) k ≤ buf.length ∧
      fragSize o buf (o.numFrags buf.length) k ≤ o.ipMax := by
  obtain ⟨-, hlast, hall⟩ := numFrags_spec hmax hlen
  have hle : k * o.ipMax ≤ (o.numFrags buf.length - 1) * o.ipMax := mul_ipMax_le (by omega)
  unfold fragSize
  split_ifs with heq
  · rw [← heq, Nat.add_mul, Nat.one_mul] at hall
    omega
  · have hnext : (k + 1) * o.ipMax ≤ (o.numFrags buf.length - 1) * o.ipMax := mul_ipMax_le (by omega)
    rw [Nat.add_mul, Nat.one_mul] at hnext
    omega

theorem length_payload_le {num : ℕ} :
    (fragAt o proto hdr buf num k).payload.length ≤ fragSize o buf num k := by
  simp [fragAt, ip4Output]

/-- The field of fragment `k`. -/
theorem offset_fragAt {num : ℕ} (hfit : k * o.ipMax < 65536) :
    (fragAt o proto hdr buf num k).offset = 8 * (k * o.ipMax / 8) := by
  have hword : (BitVec.ofNat 16 (k * o.ipMax / 8)).toNat = k * o.ipMax / 8 := by
    rw [BitVec.toNat_ofNat]
    omega
  have h := fragOfs_offmask (w := BitVec.ofNat 16 (k * o.ipMax / 8)) (by omega)
    (decide (k + 1 = num)) o.dontFrag
  simp only [decide_eq_true_eq] at h
  show 8 * (_ &&& ipOffmask).toNat = _
  rw [show (fragAt o proto hdr buf num k).fragOfs &&& ipOffmask = _ from h, hword]

theorem mf_fragAt {num : ℕ} (hfit : k * o.ipMax < 65536) :
    (fragAt o proto hdr buf num k).mf = !decide (k + 1 = num) := by
  have hword : (BitVec.ofNat 16 (k * o.ipMax / 8)).toNat < 8192 := by
    rw [BitVec.toNat_ofNat]
    omega
  have h := fragOfs_mf hword (decide (k + 1 = num)) o.dontFrag
  simp only [decide_eq_true_eq] at h
  show decide ((fragAt o proto hdr buf num k).fragOfs &&& ipMf ≠ 0) = _
  rw [show (fragAt o proto hdr buf num k).fragOfs &&& ipMf = _ from h]
  by_cases hk : k + 1 = num <;> simp [hk, ipMf]

/-- Without a protocol header the fragment carries its part of the data. -/
theorem payload_fragAt {num : ℕ} : (fragAt o proto [] buf num k).payload =
    (buf.drop (k * o.ipMax)).take (fragSize o buf num k) := by
  simp [fragAt, ip4Output]

end Sizes

/-! ## When the fragments tile the datagram -/

section Tiling

variable {o : Out} {s : Sock} {proto : Byte} {hdr buf : List Byte} {j : ℕ}

/-- Only ICMP has no header of its own in front. -/
theorem protoHeader_nil (h : protoHeader s proto buf = some []) : proto = icmpProto := by
  unfold protoHeader at h
  split_ifs at h with hicmp hudp htcp hestab
  · exact hicmp
  · have hlen := congrArg List.length (Option.some.inj h)
    unfold udpHeader at hlen
    split_ifs at hlen <;> simp [bytes16, stored16] at hlen
  · have hlen := congrArg List.length (Option.some.inj h)
    simp [tcpHeader, bytes16, bytes32, stored16] at hlen

/-- All the fragments of an ICMP message tile it, if the size of a fragment is a multiple of 8. -/
theorem tiles_range (hmax : 0 < o.ipMax) (hlen : o.ipMax < buf.length) (hfit : buf.length < 65536)
    (hmul : o.ipMax % 8 = 0) :
    Tiles buf ((List.range (o.numFrags buf.length)).map
      (fragAt o proto [] buf (o.numFrags buf.length))) := by
  obtain ⟨htwo, hlast, hall⟩ := numFrags_spec hmax hlen
  set num := o.numFrags buf.length with hnum
  have hstart : ∀ k < num, k * o.ipMax < buf.length := fun k hk =>
    (mul_ipMax_le (by omega)).trans_lt hlast
  have hofs : ∀ k < num, (fragAt o proto [] buf num k).offset = k * o.ipMax := by
    intro k hk
    rw [offset_fragAt ((hstart k hk).trans hfit)]
    exact Nat.mul_div_cancel' ((Nat.dvd_of_mod_eq_zero hmul).mul_left k)
  have hsize : ∀ k < num, (fragAt o proto [] buf num k).payload.length = fragSize o buf num k := by
    intro k hk
    have hle := (fragSize_le hmax hlen hk).1
    rw [← hnum] at hle
    rw [payload_fragAt, List.length_take, List.length_drop]
    omega
  have hget : ∀ (k : ℕ) (f : Fragment), ((List.range num).map (fragAt o proto [] buf num))[k]? = some f →
      k < num ∧ f = fragAt o proto [] buf num k := by
    intro k f hf
    rw [List.getElem?_map, Option.map_eq_some_iff] at hf
    obtain ⟨a, ha, rfl⟩ := hf
    obtain ⟨hlt, rfl⟩ := List.getElem?_eq_some_iff.mp ha
    rw [List.length_range] at hlt
    rw [List.getElem_range]
    exact ⟨hlt, rfl⟩
  refine ⟨fun f hf => ?_, fun x hx => ?_, fun k f hf hk => ?_, fun f hf => ?_, fun f hf => ?_⟩
  · obtain ⟨k, hk, rfl⟩ := List.mem_map.mp hf
    rw [hofs k (List.mem_range.mp hk), hsize k (List.mem_range.mp hk)]
    exact (fragSize_le hmax hlen (List.mem_range.mp hk)).1
  · -- the fragment with byte `x`
    have hdiv : x / o.ipMax * o.ipMax ≤ x := Nat.div_mul_le_self x o.ipMax
    have hnext : x < (x / o.ipMax + 1) * o.ipMax := Nat.lt_mul_of_div_lt (Nat.lt_succ_self _) hmax
    have hlt : x / o.ipMax < num := (Nat.div_lt_iff_lt_mul hmax).mpr (hx.trans_le hall)
    rw [Nat.add_mul, Nat.one_mul] at hnext
    refine ⟨x / o.ipMax, ⟨fragAt o proto [] buf num (x / o.ipMax), ?_, ?_, ?_⟩, ?_⟩
    · rw [List.getElem?_map, List.getElem?_range hlt]
      rfl
    · rw [hofs _ hlt]
      exact hdiv
    · rw [hofs _ hlt, hsize _ hlt]
      unfold fragSize
      split_ifs <;> omega
    · rintro k ⟨f, hf, hfrom, hto⟩
      obtain ⟨hk, rfl⟩ := hget k f hf
      rw [hofs k hk] at hfrom hto
      rw [hsize k hk] at hto
      have hle := (fragSize_le hmax hlen hk).2
      rw [← hnum] at hle
      refine (Nat.div_eq_of_lt_le ?_ ?_).symm
      · exact hfrom
      · rw [Nat.add_mul, Nat.one_mul]
        omega
  · obtain ⟨hk', rfl⟩ := hget k f hf
    rw [List.length_map, List.length_range] at hk
    rw [mf_fragAt ((hstart k hk').trans hfit), hsize k hk']
    have hne : k + 1 ≠ num := hk.ne
    exact ⟨by simp [hne], by rwa [fragSize, if_neg hne]⟩
  · rw [List.getLast?_eq_getElem?, List.length_map, List.length_range] at hf
    obtain ⟨hk, rfl⟩ := hget _ f hf
    rw [mf_fragAt ((hstart _ hk).trans hfit)]
    simp
    omega
  · obtain ⟨k, hk, rfl⟩ := List.mem_map.mp hf
    rw [List.mem_range] at hk
    rw [hofs k hk, hsize k hk, payload_fragAt]

/-- If the first `j` fragments tile the datagram, they are all, there is no header in front, and the
size of a fragment is a multiple of 8. -/
theorem of_tiles_range (hmax : 0 < o.ipMax) (hlen : o.ipMax < buf.length)
    (hfit : buf.length < 65536) (hj : j ≤ o.numFrags buf.length)
    (h : Tiles (hdr ++ buf) ((List.range j).map (fragAt o proto hdr buf (o.numFrags buf.length)))) :
    j = o.numFrags buf.length ∧ hdr = [] ∧ o.ipMax % 8 = 0 := by
  obtain ⟨htwo, hlast, hall⟩ := numFrags_spec hmax hlen
  have hstart : ∀ k < o.numFrags buf.length, k * o.ipMax < 65536 := fun k hk =>
    ((mul_ipMax_le (by omega)).trans_lt hlast).trans hfit
  -- the last byte is in some fragment
  have hbyte : (hdr ++ buf).length - 1 < (hdr ++ buf).length := by
    rw [List.length_append]
    omega
  obtain ⟨k, ⟨f, hf, -, hto⟩, -⟩ := h.once _ hbyte
  rw [List.getElem?_map, Option.map_eq_some_iff] at hf
  obtain ⟨a, ha, rfl⟩ := hf
  obtain ⟨hk, rfl⟩ := List.getElem?_eq_some_iff.mp ha
  rw [List.length_range] at hk
  rw [List.getElem_range, offset_fragAt (hstart k (by omega)), List.length_append] at hto
  have hpay : (fragAt o proto hdr buf (o.numFrags buf.length) k).payload.length ≤
      fragSize o buf (o.numFrags buf.length) k := length_payload_le
  have hsize := fragSize_le hmax hlen (hk.trans_le hj)
  have hhdr : hdr.length = 0 := by omega
  have hlastk : ¬ k + 1 < o.numFrags buf.length := by
    intro hlt
    have hnext : (k + 1) * o.ipMax ≤ (o.numFrags buf.length - 1) * o.ipMax := mul_ipMax_le (by omega)
    rw [Nat.add_mul, Nat.one_mul] at hnext
    omega
  have hjnum : j = o.numFrags buf.length := by omega
  obtain rfl := List.length_eq_zero_iff.mp hhdr
  subst hjnum
  -- the first fragment is not the last one
  have hfirst := (h.more 0 (fragAt o proto [] buf (o.numFrags buf.length) 0)
    (by rw [List.getElem?_map, List.getElem?_range (by omega)]; rfl)
    (by rw [List.length_map, List.length_range]; omega)).2
  have hne : 0 + 1 ≠ o.numFrags buf.length := by omega
  rw [payload_fragAt, List.length_take, List.length_drop, fragSize, if_neg hne] at hfirst
  have hmin : min o.ipMax (buf.length - 0 * o.ipMax) = o.ipMax := by omega
  rw [hmin] at hfirst
  exact ⟨rfl, rfl, hfirst⟩

/-- Nothing is sent for another protocol, or when the host is not found. -/
theorem not_tiles_nil {l : List Byte} (h : l ≠ []) : ¬ Tiles l [] := by
  intro htiles
  obtain ⟨k, ⟨f, hf, -⟩, -⟩ := htiles.once 0 (List.length_pos_iff.mpr h)
  simp at hf

/-- **Fragments tile the datagram** exactly if it is an ICMP message, the host is found, every
fragment is sent, and `mtu - 20` is a multiple of 8. -/
theorem fragments_iff (o : Out) (s : Sock) (proto : Byte) (buf : List Byte) (hmtu : 20 < o.mtu)
    (hlong : o.mtu - 20 < buf.length) (hfits : 20 + (content s proto buf).length ≤ 65535) :
    Tiles (content s proto buf) (ip4SendFragments o s proto buf).1 ↔
      proto = icmpProto ∧ o.arpOk = true ∧ (∀ k < o.numFrags buf.length, o.ethOk k = true) ∧
        (o.mtu - 20) % 8 = 0 := by
  have hle : buf.length ≤ (content s proto buf).length := by simp [content]
  have hmod : o.ipMax = o.mtu - 20 := Nat.mod_eq_of_lt (by omega)
  have hmax : 0 < o.ipMax := by omega
  have hlen : o.ipMax < buf.length := by omega
  have hfit : buf.length < 65536 := by omega
  have hne : content s proto buf ≠ [] := by
    rw [← List.length_pos_iff]
    omega
  rw [← hmod]
  cases hproto : protoHeader s proto buf with
  | none =>
    have hnil : (ip4SendFragments o s proto buf).1 = [] := by simp only [ip4SendFragments, hproto]
    rw [hnil]
    refine iff_of_false (not_tiles_nil hne) ?_
    rintro ⟨rfl, -⟩
    cases hproto
  | some hdr =>
    have hcontent : content s proto buf = hdr ++ buf := by simp [content, hproto]
    by_cases harp : proto = icmpProto ∧ o.arpOk = false
    · have hnil : (ip4SendFragments o s proto buf).1 = [] := by
        simp only [ip4SendFragments, hproto, if_pos harp]
      rw [hnil]
      refine iff_of_false (not_tiles_nil hne) ?_
      rintro ⟨-, hok, -⟩
      rw [harp.2] at hok
      exact Bool.false_ne_true hok
    · obtain ⟨j, hj, hfrags, hsent⟩ := frags_eq hproto harp
      rw [hfrags, hcontent, ← hsent]
      constructor
      · intro htiles
        obtain ⟨hjnum, rfl, hmul⟩ := of_tiles_range hmax hlen hfit hj htiles
        have hicmp := protoHeader_nil hproto
        exact ⟨hicmp, by simpa [hicmp] using harp, hjnum, hmul⟩
      · rintro ⟨rfl, -, rfl, hmul⟩
        cases hproto
        exact tiles_range hmax hlen hfit hmul

end Tiling

/-- The fragments of a ping of 2000 bytes over Ethernet. -/
theorem fragments_ping : Tiles (content {} icmpProto (List.replicate 2000 0))
    (ip4SendFragments {} {} icmpProto (List.replicate 2000 0)).1 :=
  (fragments_iff {} {} icmpProto (List.replicate 2000 0) (by decide)
    (by rw [List.length_replicate]; decide)
    (by rw [show content {} icmpProto (List.replicate 2000 0) = List.replicate 2000 0 from rfl,
          List.length_replicate]; decide)).mpr
    ⟨rfl, rfl, fun _ _ => rfl, by decide⟩

/-- UDP data of 1481 bytes over Ethernet lose their last 8 bytes of the first fragment. -/
theorem fragments_fail : ¬ ∀ (o : Out) (s : Sock) (proto : Byte) (buf : List Byte), 20 < o.mtu →
    o.mtu - 20 < buf.length → 20 + (content s proto buf).length ≤ 65535 →
    Tiles (content s proto buf) (ip4SendFragments o s proto buf).1 := by
  intro hall
  have hbuf : (List.replicate 1481 (0 : Byte)).length = 1481 := List.length_replicate
  have hproto : ∀ buf, protoHeader {} udpProto buf = some (udpHeader {} buf) := fun _ => rfl
  have hcontent : ∀ buf, content {} udpProto buf = udpHeader {} buf ++ buf := fun _ => rfl
  have hlen : ∀ buf, (udpHeader {} buf).length = 8 := by
    intro buf
    unfold udpHeader
    rw [if_pos rfl]
    rfl
  have htiles := hall {} {} udpProto (List.replicate 1481 0) (by decide) (by rw [hbuf]; decide)
    (by rw [hcontent, List.length_append, hlen, hbuf]; decide)
  obtain ⟨j, hj, hfrags, -⟩ := frags_eq (o := {}) (hproto _) (by decide)
  rw [hfrags, hcontent] at htiles
  obtain ⟨-, hnil, -⟩ := of_tiles_range (by decide) (by rw [hbuf]; decide) (by rw [hbuf]; decide) hj
    htiles
  have hnone := hlen (List.replicate 1481 0)
  rw [hnil] at hnone
  cases hnone

end Watt32.Ip
