import Watt32.Tcp.Family

/-!
# The components of an IPv6 packet

`split_ip6` of `split.c`, which walks over the headers and fills `split_list_in`.

* `extEntry`, `splitWalk`, `splitIp6`: the entries, without the terminator behind them.
* `Chain`, `WellFormed`: routing and destination-options headers up to a TCP, UDP or ICMPv6 header.
* `WalkOk`: the walk ends, stays below the marker, and finds the upper header of a well-formed chain.
* `lt_length_splitWalk`: when the walk has more than so many entries.
* **`split_ip6_iff`**: which packets are split as they should.
-/

namespace Watt32.Split

open Tcp (Packet in6Len sizeofIn6Header)

/-! ## The source -/

/-- `IP6_NEXT_XXX`. -/
def ip6NextHop : Byte := 0
def ip6NextTcp : Byte := 6
def ip6NextUdp : Byte := 17
def ip6NextIpv6 : Byte := 41
def ip6NextRouting : Byte := 43
def ip6NextFragment : Byte := 44
def ip6NextEsp : Byte := 50
def ip6NextAuth : Byte := 51
def ip6NextIcmp : Byte := 58
def ip6NextNone : Byte := 59
def ip6NextDest : Byte := 60

/-- The `enum Components` of an IPv6 packet. -/
inductive Component
  | ip6 | tcpHead | tcpOptions | udpHead | ip6Hop | ip6Routing | ip6Dest | ip6Icmp | ip6None | ip6Unsupp
  deriving DecidableEq

/-- `struct pkt_split`; `data` is an offset from the IPv6 header on, or null. -/
structure PktSplit where
  type : Component
  data : Option ℕ
  len : Dword
  deriving DecidableEq

section Walk

variable (ip : Packet)

/-- `(rh->hdrlen + 1) << 3` of the extension header at `p`. -/
def hdrLen (p : ℕ) : ℕ := ((ip (p + 1)).toNat + 1) * 8

/-- The `len` of every extension header: `rh` is always behind the IPv6 header. -/
def stride : ℕ := hdrLen ip sizeofIn6Header

/-- `tcp->offset << 2`. -/
def tcpOfs : ℕ := 4 * ((ip (sizeofIn6Header + 12)).extractLsb' 4 4).toNat

/-- The entries of a TCP header. The difference is unsigned. -/
def tcpEntries : List PktSplit :=
  if BitVec.ofNat 32 (tcpOfs ip) - 20 ≠ 0 then
    [⟨.tcpHead, some sizeofIn6Header, 20⟩,
     ⟨.tcpOptions, some (sizeofIn6Header + 20), BitVec.ofNat 32 (tcpOfs ip) - 20⟩]
  else [⟨.tcpHead, some sizeofIn6Header, 20⟩]

/-- The entry of a header behind which the walk goes on. `IP6_NEXT_HOP` is 0 and ends the loop before. -/
def extEntry (nxtHd : Byte) : Option PktSplit :=
  if nxtHd = ip6NextHop then some ⟨.ip6Hop, some sizeofIn6Header, BitVec.ofNat 32 (stride ip)⟩
  else if nxtHd = ip6NextRouting then some ⟨.ip6Routing, some sizeofIn6Header, BitVec.ofNat 32 (stride ip)⟩
  else if nxtHd = ip6NextDest then some ⟨.ip6Dest, some sizeofIn6Header, BitVec.ofNat 32 (stride ip)⟩
  else if nxtHd = ip6NextFragment ∨ nxtHd = ip6NextEsp ∨ nxtHd = ip6NextAuth ∨ nxtHd = ip6NextIpv6 then
    some ⟨.ip6Unsupp, none, 0⟩
  else none

/-- The loop, with `nxt_hd` and with `bp` as an offset from the IPv6 header on. -/
def splitWalk (nxtHd : Byte) (bp : ℕ) : List PktSplit :=
  if _h : nxtHd ≠ 0 ∧ bp < (in6Len ip).toNat then
    if nxtHd = ip6NextTcp then tcpEntries ip
    else if nxtHd = ip6NextUdp then [⟨.udpHead, some sizeofIn6Header, 8⟩]
    else if nxtHd = ip6NextIcmp then [⟨.ip6Icmp, some sizeofIn6Header, BitVec.ofNat 32 (stride ip)⟩]
    else if nxtHd = ip6NextNone then [⟨.ip6None, none, 0⟩]
    else
      match extEntry ip nxtHd with
      | some entry => entry :: splitWalk (ip (bp + stride ip)) (bp + stride ip)
      | none => [⟨.ip6Unsupp, none, 0⟩]
  else []
termination_by (in6Len ip).toNat - bp
decreasing_by
  unfold stride hdrLen
  omega

/-- The entries of `split_ip6`. -/
def splitIp6 : List PktSplit := ⟨.ip6, some 0, 40⟩ :: splitWalk ip (ip 6) 0

end Walk

/-- The slot of the IPv6 header in the list: a MAC header takes the first, which a serial driver lacks. -/
def ipSlot (pktserial : Bool) : ℕ := if pktserial then 0 else 1

/-- `MAX_SPLITS`; the last slot of the list holds the `MARKER`. -/
def maxSplits : ℕ := 10

/-! ## What it is for -/

/-- The upper-layer headers. -/
inductive Upper
  | tcp | udp | icmp

/-- The next-header value, the length of the header at least, and the type of its entry. -/
def Upper.proto : Upper → Byte
  | tcp => ip6NextTcp | udp => ip6NextUdp | icmp => ip6NextIcmp

def Upper.size : Upper → ℕ
  | tcp => 20 | udp => 8 | icmp => 4

def Upper.type : Upper → Component
  | tcp => .tcpHead | udp => .udpHead | icmp => .ip6Icmp

/-- From the header at `p`, of the type `nxtHd`, extension headers inside the payload lead to the upper header at
`q`. -/
inductive Chain (ip : Packet) (q : ℕ) (up : Upper) : Byte → ℕ → Prop
  | upper : q + up.size ≤ sizeofIn6Header + (in6Len ip).toNat → Chain ip q up up.proto q
  | ext {nxtHd : Byte} {p : ℕ} : nxtHd = ip6NextRouting ∨ nxtHd = ip6NextDest →
      Chain ip q up (ip p) (p + hdrLen ip p) → Chain ip q up nxtHd p

/-- A well-formed chain with its upper header at `q`. -/
def WellFormed (ip : Packet) (q : ℕ) (up : Upper) : Prop := Chain ip q up (ip 6) sizeofIn6Header

/-- The walk ends after so many entries, all slots written, the terminator's included, are below the marker, and
the upper header of a well-formed chain has its entry. -/
structure WalkOk (pktserial : Bool) (ip : Packet) : Prop where
  ends : (splitIp6 ip).length ≤ (in6Len ip).toNat / 8 + 3
  marker : ipSlot pktserial + (splitIp6 ip).length < maxSplits - 1
  upper : ∀ q up, WellFormed ip q up → ∃ entry ∈ splitIp6 ip, entry.type = up.type ∧ entry.data = some q

/-! ## The walk -/

/-- The walk goes on behind a header of this type. -/
def IsExt (nxtHd : Byte) : Prop :=
  nxtHd ∈ [ip6NextRouting, ip6NextDest, ip6NextFragment, ip6NextEsp, ip6NextAuth, ip6NextIpv6]

instance : DecidablePred IsExt := fun _ => inferInstanceAs (Decidable (_ ∈ _))

/-- The `nxt_hd` of turn `k` of a walk from `bp` on. -/
def nextAt (ip : Packet) (nxtHd : Byte) (bp k : ℕ) : Byte := if k = 0 then nxtHd else ip (bp + k * stride ip)

section Entries

variable {ip : Packet} {nxtHd : Byte} {bp m : ℕ} {entry : PktSplit}

theorem stride_ge : 8 ≤ stride ip := by
  unfold stride hdrLen
  omega

theorem nextAt_succ (k : ℕ) : nextAt ip nxtHd bp (k + 1) =
    nextAt ip (ip (bp + stride ip)) (bp + stride ip) k := by
  unfold nextAt
  rw [if_neg (Nat.succ_ne_zero k)]
  split_ifs with hk
  · rw [hk, Nat.zero_add, Nat.one_mul]
  · rw [Nat.add_mul, Nat.one_mul]
    congr 1
    omega

theorem extEntry_isSome (hne : nxtHd ≠ 0) : (extEntry ip nxtHd).isSome = true ↔ IsExt nxtHd := by
  have hhop : nxtHd ≠ ip6NextHop := hne
  unfold extEntry IsExt
  simp only [List.mem_cons, List.not_mem_nil, or_false]
  rw [if_neg hhop]
  split_ifs <;> simp_all

theorem IsExt.ne (h : IsExt nxtHd) : nxtHd ≠ 0 ∧ nxtHd ≠ ip6NextTcp ∧ nxtHd ≠ ip6NextUdp ∧
    nxtHd ≠ ip6NextIcmp ∧ nxtHd ≠ ip6NextNone := by
  unfold IsExt at h
  simp only [List.mem_cons, List.not_mem_nil, or_false] at h
  rcases h with rfl | rfl | rfl | rfl | rfl | rfl <;> decide

/-- A turn with an extension header. -/
theorem splitWalk_ext (h : IsExt nxtHd) (hbp : bp < (in6Len ip).toNat) : ∃ entry, extEntry ip nxtHd = some entry ∧
    splitWalk ip nxtHd bp = entry :: splitWalk ip (ip (bp + stride ip)) (bp + stride ip) := by
  obtain ⟨h₀, h₁, h₂, h₃, h₄⟩ := h.ne
  obtain ⟨entry, hentry⟩ := Option.isSome_iff_exists.mp ((@extEntry_isSome ip _ h₀).mpr h)
  refine ⟨entry, hentry, ?_⟩
  rw [splitWalk, dif_pos ⟨h₀, hbp⟩, if_neg h₁, if_neg h₂, if_neg h₃, if_neg h₄, hentry]

/-- A turn with another header is the last. -/
theorem splitWalk_last (h : ¬ IsExt nxtHd) (hne : nxtHd ≠ 0) (hbp : bp < (in6Len ip).toNat) :
    splitWalk ip nxtHd bp = tcpEntries ip ∧ nxtHd = ip6NextTcp ∨
    ∃ entry, splitWalk ip nxtHd bp = [entry] ∧ nxtHd ≠ ip6NextTcp ∧ (nxtHd = ip6NextUdp → entry.type = .udpHead) ∧
      (nxtHd = ip6NextIcmp → entry.type = .ip6Icmp) ∧ entry.type ≠ .tcpHead ∧
      (entry.type = .udpHead ∨ entry.type = .ip6Icmp → entry.data = some sizeofIn6Header) := by
  have hnone : extEntry ip nxtHd = none := by
    rw [← Option.not_isSome_iff_eq_none, extEntry_isSome hne]
    exact h
  rw [splitWalk, dif_pos ⟨hne, hbp⟩]
  by_cases h₁ : nxtHd = ip6NextTcp
  · rw [if_pos h₁]
    exact .inl ⟨rfl, h₁⟩
  · right
    rw [if_neg h₁, hnone]
    split_ifs with h₂ h₃ h₄
    · exact ⟨_, rfl, h₁, fun _ => rfl, fun h => absurd (h₂.symm.trans h) (by decide), nofun, fun _ => rfl⟩
    · exact ⟨_, rfl, h₁, fun h => absurd h h₂, fun _ => rfl, nofun, fun _ => rfl⟩
    · exact ⟨_, rfl, h₁, fun h => absurd h h₂, fun h => absurd h h₃, nofun, nofun⟩
    · exact ⟨_, rfl, h₁, fun h => absurd h h₂, fun h => absurd h h₃, nofun, nofun⟩

theorem splitWalk_nil (h : ¬ (nxtHd ≠ 0 ∧ bp < (in6Len ip).toNat)) : splitWalk ip nxtHd bp = [] := by
  rw [splitWalk, dif_neg h]

/-- A walk goes on, ends with this turn, or has ended. -/
theorem walk_cases (ip : Packet) (nxtHd : Byte) (bp : ℕ) : IsExt nxtHd ∧ bp < (in6Len ip).toNat ∨
    ¬ IsExt nxtHd ∧ nxtHd ≠ 0 ∧ bp < (in6Len ip).toNat ∨ ¬ (nxtHd ≠ 0 ∧ bp < (in6Len ip).toNat) := by
  by_cases hext : IsExt nxtHd
  · by_cases hbp : bp < (in6Len ip).toNat
    · exact .inl ⟨hext, hbp⟩
    · exact .inr (.inr fun h => hbp h.2)
  · by_cases h : nxtHd ≠ 0 ∧ bp < (in6Len ip).toNat
    · exact .inr (.inl ⟨hext, h⟩)
    · exact .inr (.inr h)

theorem length_tcpEntries : (tcpEntries ip).length = if tcpOfs ip = 20 then 1 else 2 := by
  have hlt : tcpOfs ip < 2 ^ 32 := by
    unfold tcpOfs
    omega
  have hsub : BitVec.ofNat 32 (tcpOfs ip) - 20 = 0 ↔ tcpOfs ip = 20 := by
    rw [sub_eq_zero]
    constructor
    · intro h
      have := congrArg BitVec.toNat h
      rw [BitVec.toNat_ofNat, Nat.mod_eq_of_lt hlt] at this
      exact this
    · intro h
      rw [h]
      rfl
  unfold tcpEntries
  by_cases h : tcpOfs ip = 20
  · rw [if_neg (not_not.mpr (hsub.mpr h)), if_pos h]
    rfl
  · rw [if_pos fun h0 => h (hsub.mp h0), if_neg h]
    rfl

/-- **The walk ends**: each turn takes eight bytes at least. -/
theorem length_splitWalk_le (nxtHd : Byte) (bp : ℕ) :
    (splitWalk ip nxtHd bp).length ≤ ((in6Len ip).toNat - bp + 7) / 8 + 1 := by
  induction hn : (in6Len ip).toNat - bp using Nat.strong_induction_on generalizing nxtHd bp with
  | _ n ih =>
    rcases walk_cases ip nxtHd bp with ⟨hext, hbp⟩ | ⟨hlast, hne, hbp⟩ | hstop
    · obtain ⟨entry, -, hwalk⟩ := splitWalk_ext hext hbp
      have hstride := @stride_ge ip
      have := ih ((in6Len ip).toNat - (bp + stride ip)) (by omega) (ip (bp + stride ip)) (bp + stride ip) rfl
      rw [hwalk, List.length_cons]
      omega
    · rcases splitWalk_last hlast hne hbp with ⟨hwalk, -⟩ | ⟨entry, hwalk, -⟩
      · rw [hwalk, length_tcpEntries]
        split_ifs <;> omega
      · rw [hwalk, List.length_singleton]
        omega
    · rw [splitWalk_nil hstop]
      exact Nat.zero_le _

/-- Turn `m` comes, behind extension headers only, with `nxt_hd` such. -/
structure Reaches (ip : Packet) (nxtHd : Byte) (bp m : ℕ) (P : Byte → Prop) : Prop where
  exts : ∀ k < m, IsExt (nextAt ip nxtHd bp k)
  inside : bp + m * stride ip < (in6Len ip).toNat
  last : P (nextAt ip nxtHd bp m)

variable {P : Byte → Prop}

theorem nextAt_zero : nextAt ip nxtHd bp 0 = nxtHd := if_pos rfl

theorem reaches_zero : Reaches ip nxtHd bp 0 P ↔ bp < (in6Len ip).toNat ∧ P nxtHd := by
  have hzero : bp + 0 * stride ip = bp := by omega
  constructor
  · rintro ⟨-, h₂, h₃⟩
    rw [hzero] at h₂
    rw [nextAt_zero] at h₃
    exact ⟨h₂, h₃⟩
  · rintro ⟨h₂, h₃⟩
    refine ⟨nofun, ?_, ?_⟩
    · rwa [hzero]
    · rwa [nextAt_zero]

/-- The turns behind the first. -/
theorem reaches_succ : Reaches ip nxtHd bp (m + 1) P ↔
    IsExt nxtHd ∧ Reaches ip (ip (bp + stride ip)) (bp + stride ip) m P := by
  have hinside : bp + (m + 1) * stride ip = bp + stride ip + m * stride ip := by
    rw [Nat.add_mul, Nat.one_mul]
    omega
  constructor
  · rintro ⟨h₁, h₂, h₃⟩
    rw [hinside] at h₂
    rw [nextAt_succ] at h₃
    have hfirst := h₁ 0 (Nat.succ_pos m)
    rw [nextAt_zero] at hfirst
    refine ⟨hfirst, fun k hk => ?_, h₂, h₃⟩
    rw [← nextAt_succ]
    exact h₁ (k + 1) (by omega)
  · rintro ⟨hfirst, h₁, h₂, h₃⟩
    rw [← hinside] at h₂
    rw [← nextAt_succ] at h₃
    refine ⟨fun k hk => ?_, h₂, h₃⟩
    cases k with
    | zero =>
      rw [nextAt_zero]
      exact hfirst
    | succ k =>
      rw [nextAt_succ]
      exact h₁ k (by omega)

/-- A turn that comes starts inside the packet, with a header. -/
theorem Reaches.start (h : Reaches ip nxtHd bp m P) (hP : ∀ b, P b → b ≠ 0) :
    nxtHd ≠ 0 ∧ bp < (in6Len ip).toNat := by
  have hin := h.inside
  have hle : bp ≤ bp + m * stride ip := Nat.le_add_right ..
  refine ⟨?_, by omega⟩
  cases m with
  | zero => exact hP _ (reaches_zero.mp h).2
  | succ m => exact (reaches_succ.mp h).1.ne.1

/-- **The length of the walk**: it has more than `m` entries if turn `m` comes, or if the turn before comes with a
TCP header that has an entry for its options. -/
theorem lt_length_splitWalk : m < (splitWalk ip nxtHd bp).length ↔ Reaches ip nxtHd bp m (· ≠ 0) ∨
    0 < m ∧ tcpOfs ip ≠ 20 ∧ Reaches ip nxtHd bp (m - 1) (· = ip6NextTcp) := by
  have htcp : ∀ b, b = ip6NextTcp → b ≠ 0 := by
    rintro b rfl
    decide
  induction m generalizing nxtHd bp with
  | zero =>
    rw [reaches_zero, or_iff_left fun h => absurd h.1 (lt_irrefl 0)]
    rcases walk_cases ip nxtHd bp with ⟨hext, hbp⟩ | ⟨hlast, hne, hbp⟩ | hstop
    · obtain ⟨entry, -, hwalk⟩ := splitWalk_ext hext hbp
      rw [hwalk]
      exact iff_of_true (Nat.succ_pos _) ⟨hbp, hext.ne.1⟩
    · refine iff_of_true ?_ ⟨hbp, hne⟩
      rcases splitWalk_last hlast hne hbp with ⟨hwalk, -⟩ | ⟨entry, hwalk, -⟩
      · rw [hwalk, length_tcpEntries]
        split_ifs <;> decide
      · rw [hwalk]
        exact Nat.one_pos
    · rw [splitWalk_nil hstop]
      exact iff_of_false (lt_irrefl 0) fun h => hstop ⟨h.2, h.1⟩
  | succ m ih =>
    rw [Nat.add_sub_cancel, and_iff_right (Nat.succ_pos m)]
    rcases walk_cases ip nxtHd bp with ⟨hext, hbp⟩ | ⟨hlast, hne, hbp⟩ | hstop
    · obtain ⟨entry, -, hwalk⟩ := splitWalk_ext hext hbp
      have hrest := @ih (ip (bp + stride ip)) (bp + stride ip)
      rw [hwalk, List.length_cons, Nat.succ_lt_succ_iff, reaches_succ, and_iff_right hext]
      refine hrest.trans (or_congr_right ?_)
      cases m with
      | zero =>
        refine iff_of_false (fun h => absurd h.1 (lt_irrefl 0)) fun h => ?_
        exact hext.ne.2.1 (reaches_zero.mp h.2).2
      | succ m => rw [reaches_succ, and_iff_right hext, Nat.add_sub_cancel, and_iff_right (Nat.succ_pos m)]
    · have hfirst : ∀ {k P}, ¬ Reaches ip nxtHd bp (k + 1) P := fun h => hlast (reaches_succ.mp h).1
      rw [or_iff_right hfirst]
      rcases splitWalk_last hlast hne hbp with ⟨hwalk, hproto⟩ | ⟨entry, hwalk, hproto, -⟩
      · rw [hwalk, length_tcpEntries]
        cases m with
        | zero =>
          rw [reaches_zero, and_iff_left ⟨hbp, hproto⟩]
          split_ifs with h
          · exact iff_of_false (lt_irrefl 1) (not_not.mpr h)
          · exact iff_of_true (by decide) h
        | succ m =>
          refine iff_of_false ?_ fun h => hfirst h.2
          split_ifs <;> omega
      · rw [hwalk, List.length_singleton]
        refine iff_of_false (by omega) fun h => ?_
        cases m with
        | zero => exact hproto (reaches_zero.mp h.2).2
        | succ m => exact hfirst h.2
    · rw [splitWalk_nil hstop]
      refine iff_of_false (Nat.not_lt_zero _) ?_
      rintro (h | ⟨-, h⟩)
      · exact hstop (h.start fun _ => id)
      · exact hstop (h.start htcp)

/-- Every upper header is taken to be right behind the IPv6 header. -/
theorem data_of_mem_splitWalk (up : Upper) : ∀ (nxtHd : Byte) (bp : ℕ), ∀ entry ∈ splitWalk ip nxtHd bp,
    entry.type = up.type → entry.data = some sizeofIn6Header := by
  intro nxtHd bp
  induction hn : (in6Len ip).toNat - bp using Nat.strong_induction_on generalizing nxtHd bp with
  | _ n ih =>
    intro entry hmem htype
    rcases walk_cases ip nxtHd bp with ⟨hext, hbp⟩ | ⟨hlast, hne, hbp⟩ | hstop
    · obtain ⟨first, hfirst, hwalk⟩ := splitWalk_ext hext hbp
      have hstride := @stride_ge ip
      rw [hwalk] at hmem
      rcases List.mem_cons.mp hmem with rfl | hmem
      · unfold extEntry at hfirst
        split_ifs at hfirst <;> obtain rfl := Option.some_inj.mp hfirst
        · rfl
        · rfl
        · rfl
        · cases up <;> cases htype
      · exact ih ((in6Len ip).toNat - (bp + stride ip)) (by omega) _ _ rfl entry hmem htype
    · rcases splitWalk_last hlast hne hbp with ⟨hwalk, -⟩ | ⟨last, hwalk, -, -, -, htcp, hdata⟩
      · rw [hwalk] at hmem
        unfold tcpEntries at hmem
        split_ifs at hmem
        · rcases List.mem_cons.mp hmem with rfl | hmem
          · rfl
          · rw [List.mem_singleton.mp hmem] at htype
            cases up <;> cases htype
        · rw [List.mem_singleton.mp hmem]
      · rw [hwalk] at hmem
        rw [List.mem_singleton.mp hmem] at htype ⊢
        refine hdata ?_
        cases up with
        | tcp => exact absurd htype htcp
        | udp => exact .inl htype
        | icmp => exact .inr htype
    · rw [splitWalk_nil hstop] at hmem
      cases hmem

/-- An upper header that comes first has its entry. -/
theorem exists_upper (up : Upper) (hpos : 0 < (in6Len ip).toNat) :
    ∃ entry ∈ splitWalk ip up.proto 0, entry.type = up.type ∧ entry.data = some sizeofIn6Header := by
  have hlast : ¬ IsExt up.proto := by cases up <;> decide
  have hne : up.proto ≠ 0 := by cases up <;> decide
  have hexists : ∃ entry ∈ splitWalk ip up.proto 0, entry.type = up.type := by
    rcases splitWalk_last hlast hne hpos with ⟨hwalk, hproto⟩ | ⟨last, hwalk, hproto, hudp, hicmp, -⟩
    · have hup : up = .tcp := by
        cases up with
        | tcp => rfl
        | udp => exact absurd hproto (by decide)
        | icmp => exact absurd hproto (by decide)
      refine ⟨⟨.tcpHead, some sizeofIn6Header, 20⟩, ?_, by rw [hup]; rfl⟩
      rw [hwalk]
      unfold tcpEntries
      split_ifs
      · exact List.mem_cons_self
      · exact List.mem_cons_self
    · refine ⟨last, by rw [hwalk]; exact List.mem_singleton_self last, ?_⟩
      cases up with
      | tcp => exact absurd rfl hproto
      | udp => exact hudp rfl
      | icmp => exact hicmp rfl
  obtain ⟨entry, hmem, htype⟩ := hexists
  exact ⟨entry, hmem, htype, data_of_mem_splitWalk up _ _ entry hmem htype⟩

end Entries

/-! ## Chains -/

section Chains

variable {ip : Packet} {q p : ℕ} {up : Upper} {nxtHd : Byte}

theorem Chain.le (h : Chain ip q up nxtHd p) : p ≤ q := by
  induction h with
  | upper _ => exact le_rfl
  | ext _ _ ih => exact (Nat.le_add_right ..).trans ih

theorem Chain.inside (h : Chain ip q up nxtHd p) : q + up.size ≤ sizeofIn6Header + (in6Len ip).toNat := by
  induction h with
  | upper h => exact h
  | ext _ _ ih => exact ih

/-- A chain without extension headers is the upper header. -/
theorem Chain.plain (h : Chain ip q up nxtHd p) (hplain : nxtHd ≠ ip6NextRouting ∧ nxtHd ≠ ip6NextDest) :
    nxtHd = up.proto ∧ p = q := by
  cases h with
  | upper _ => exact ⟨rfl, rfl⟩
  | ext hext _ => exact absurd hext (not_or.mpr hplain)

/-- Extension headers take room. -/
theorem Chain.lt (h : Chain ip q up nxtHd p) (hext : nxtHd = ip6NextRouting ∨ nxtHd = ip6NextDest) : p < q := by
  cases h with
  | upper _ => cases up <;> exact absurd hext (by decide)
  | ext _ hrest =>
    have := hrest.le
    unfold hdrLen at this
    omega

end Chains

/-- The walk of the packet fits below the marker: the turn for which no slot is left does not come, and the one
before does not come with a TCP header that has options. -/
structure Fits (pktserial : Bool) (ip : Packet) : Prop where
  turns : ¬ Reaches ip (ip 6) 0 (7 - ipSlot pktserial) (· ≠ 0)
  tcp : tcpOfs ip ≠ 20 → ¬ Reaches ip (ip 6) 0 (6 - ipSlot pktserial) (· = ip6NextTcp)

/-- **The split of an IPv6 packet** is as it should exactly if its walk fits below the marker and no extension
header of a well-formed chain is in it. -/
theorem split_ip6_iff (pktserial : Bool) (ip : Packet) : WalkOk pktserial ip ↔ Fits pktserial ip ∧
    ∀ q up, WellFormed ip q up → ip 6 ≠ ip6NextRouting ∧ ip 6 ≠ ip6NextDest := by
  have hlen := @lt_length_splitWalk ip (ip 6) 0 (7 - ipSlot pktserial)
  have hslot : ipSlot pktserial ≤ 1 := by cases pktserial <;> decide
  have hfits : ipSlot pktserial + (splitIp6 ip).length < maxSplits - 1 ↔ Fits pktserial ip := by
    have hpred : 7 - ipSlot pktserial - 1 = 6 - ipSlot pktserial := by omega
    have hshort : ipSlot pktserial + (splitIp6 ip).length < maxSplits - 1 ↔
        ¬ 7 - ipSlot pktserial < (splitWalk ip (ip 6) 0).length := by
      unfold splitIp6 maxSplits
      rw [List.length_cons]
      omega
    rw [hshort, hlen, hpred, not_or]
    constructor
    · rintro ⟨h₁, h₂⟩
      exact ⟨h₁, fun hopt h => h₂ ⟨by omega, hopt, h⟩⟩
    · rintro ⟨h₁, h₂⟩
      exact ⟨h₁, fun h => h₂ h.2.1 h.2.2⟩
  constructor
  · intro h
    refine ⟨hfits.mp h.marker, fun q up hchain => ?_⟩
    by_contra hext
    have hext' : ip 6 = ip6NextRouting ∨ ip 6 = ip6NextDest := by tauto
    obtain ⟨entry, hmem, htype, hdata⟩ := h.upper q up hchain
    have hlt := hchain.lt hext'
    rcases List.mem_cons.mp hmem with rfl | hmem
    · cases up <;> cases htype
    · rw [data_of_mem_splitWalk up _ _ entry hmem htype] at hdata
      exact hlt.ne (Option.some_inj.mp hdata)
  · rintro ⟨hfit, hplain⟩
    refine ⟨?_, hfits.mpr hfit, fun q up hchain => ?_⟩
    · have := @length_splitWalk_le ip (ip 6) 0
      unfold splitIp6
      rw [List.length_cons]
      omega
    · obtain ⟨hproto, hq⟩ := Chain.plain hchain (hplain q up hchain)
      have hinside := Chain.inside hchain
      have hpos : 0 < (in6Len ip).toNat := by
        rw [← hq] at hinside
        cases up <;> simp only [Upper.size] at hinside <;> omega
      obtain ⟨entry, hmem, hentry⟩ := @exists_upper ip up hpos
      rw [← hproto] at hmem
      rw [← hq]
      exact ⟨entry, List.mem_cons_of_mem _ hmem, hentry⟩

/-- A routing header in front of a UDP header, which is at 48. -/
def routedPacket : Packet := Tcp.packetOf
  ([0x60, 0, 0, 0, 0, 16, 43, 64] ++ List.replicate 32 0 ++ [17, 0, 0, 0, 0, 0, 0, 0] ++ [0, 7, 0, 9, 0, 8, 0, 0])

/-- Routing headers all over, each 8 bytes behind the one before. -/
def floodPacket : Packet := fun i => if i = 41 then 0 else 43

/-- The UDP header of the one is not found, and the other writes over the marker. -/
theorem split_ip6_fails : ¬ WalkOk false routedPacket ∧ ¬ WalkOk false floodPacket := by
  constructor
  · intro h
    have hchain : WellFormed routedPacket 48 .udp := .ext (.inl rfl) (.upper (by decide))
    obtain ⟨entry, hmem, htype, hdata⟩ := h.upper 48 .udp hchain
    rcases List.mem_cons.mp hmem with rfl | hmem
    · cases htype
    · rw [data_of_mem_splitWalk .udp _ _ entry hmem htype] at hdata
      exact absurd hdata (by decide)
  · intro h
    have hlong : 6 < (splitWalk floodPacket (floodPacket 6) 0).length :=
      lt_length_splitWalk.mpr (.inl ⟨by decide, by decide, by decide⟩)
    have hmarker := h.marker
    unfold splitIp6 at hmarker
    rw [List.length_cons] at hmarker
    have hslot : ipSlot false = 1 := rfl
    have hmax : maxSplits = 10 := rfl
    omega

end Watt32.Split
