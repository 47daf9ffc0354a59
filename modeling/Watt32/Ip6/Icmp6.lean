import Watt32.Ip6.Split
import Watt32.Lib.Reads
import Watt32.Udp.Sums

/-!
# ICMPv6 input

`icmp6_handler`, `router_advert` and `parse_options` of `pcicmp6.c` and `_ip6_icmp_checksum` of `chksum.c`, as programs
that read the packet. Place and length of the message come from the list of `split_ip6`.

* `parseOptionsR`, `routerAdvertR`, `icmp6HandlerR`: the functions; `deliverR`: the handler for a packet.
* `Carries`: extension headers lead to the message; `Handled`: the handler ends, reads the IPv6 header and the message only,
  and takes a message without extension headers for right if its checksum is.
* `Fit`: the packets that the handler can take.
* **`icmp6_handled_iff`**: it can take exactly these.
-/

namespace Watt32.Icmp6

open Reads
open Split
open Tcp (Packet in6Len sizeofIn6Header)
open Ip (bytes16)
open OnesSum (littleSum bigSum Ones)
open Udp (ip6Sum)

/-! ## The source -/

/-- `ICMP6_ECHO_REQUEST`, `ND_ROUTER_ADVERT`, `ND_NEIGHBOR_SOLICIT` and `ND_OPT_PREFIX_INFORMATION`. -/
def icmp6EchoRequest : Byte := 128
def ndRouterAdvert : Byte := 134
def ndNeighborSolicit : Byte := 135
def ndOptPrefixInformation : Byte := 3

/-- `sizeof(icmp->unused)` and `sizeof(icmp->radvert)`. -/
def sizeofUnused : ℕ := 8
def sizeofRadvert : ℕ := 16

/-- What a router advertisement sets: `_default6_ttl`, `route_lifetime`, `icmp6_prefix_len` and `icmp6_prefix`. -/
structure Router where
  default6Ttl : ℕ := 255
  routeLifetime : Word := 0
  icmp6PrefixLen : ℕ := 0
  icmp6Prefix : List Byte := List.replicate 16 0

/-- The `switch` of `parse_options` for the option at `opt`, of `opt[1]` eight bytes. -/
def optionR (opt : ℕ) (type pilen : Byte) (g : Router) : Reads Byte Router :=
  if type = ndOptPrefixInformation ∧ pilen = 4 then do
    let len ← cell (opt + 2)
    let pfx ← cells (opt + 16) 16
    return { g with icmp6PrefixLen := len.toNat, icmp6Prefix := pfx }
  else pure g

/-- `parse_options` up to `stop`, in `fuel` turns at most. -/
def parseOptionsR (stop : ℕ) : (fuel opt : ℕ) → Router → Reads Byte (Option Router)
  | 0, _, _ => pure none
  | fuel + 1, opt, g =>
    if opt < stop then do
      let type ← cell opt
      let pilen ← cell (opt + 1)
      let g ← optionR opt type pilen g
      parseOptionsR stop fuel (opt + 8 * pilen.toNat) g
    else pure (some g)

/-- `router_advert`. -/
def routerAdvertR (fuel icmp len : ℕ) (g : Router) : Reads Byte (Option Router) := do
  let hopLimit ← cell (icmp + 4)
  let g := if hopLimit ≠ 0 then { g with default6Ttl := hopLimit.toNat } else g
  let hi ← cell (icmp + 6)
  let lo ← cell (icmp + 7)
  let g := if hi ++ lo ≠ (0 : Word) then { g with routeLifetime := hi ++ lo } else g
  if sizeofRadvert < len then
    parseOptionsR (icmp + sizeofRadvert + (len - sizeofRadvert)) fuel (icmp + sizeofRadvert) g
  else pure (some g)

/-- `_ip6_icmp_checksum`, of the addresses and the payload. -/
def ip6IcmpChecksum (src dst payload : List Byte) (len : ℕ) : Bool :=
  ip6Sum (src ++ dst ++ bytes16 (BitVec.ofNat 16 len) ++ [0, 0, 0, ip6NextIcmp]) payload = 0xffff

/-- `_ip6_icmp_checksum (ip, icmp, len)`. -/
def ip6IcmpChecksumR (icmp len : ℕ) : Reads Byte Bool := do
  let src ← cells 8 16
  let dst ← cells 24 16
  let payload ← cells icmp len
  return ip6IcmpChecksum src dst payload len

/-- What does not change: `in6addr_my_ip` and `_mtu`. -/
structure Env where
  in6addrMyIp : List Byte
  mtu : ℕ := 1500

/-- What is sent: the reply to an echo request with the bytes copied from it and its code, or a neighbour advertisement. -/
inductive Sent
  | echoReply (copied : List Byte) (code : Byte)
  | neighborAdvert

/-- What the handler leaves: whether it came to the `switch`, the statistics it raised, what it sent. -/
structure Outcome where
  processed : Bool := false
  tooshort : Bool := false
  checksum : Bool := false
  router : Router
  sent : Option Sent := none

/-- `IN6_IS_ADDR_LINKLOCAL (ip->source)`, of its first two bytes. -/
def in6IsAddrLinklocal (a b : Byte) : Bool := a = 0xFE ∧ b &&& 0xC0 = 0x80

/-- The `switch`; the types that are not here do nothing. -/
def switchR (env : Env) (fuel icmp len ipLen : ℕ) (forMe : Bool) (g : Router) (type code : Byte) :
    Reads Byte (Option Outcome) :=
  if type = icmp6EchoRequest then
    if forMe then do
      -- `len = min (len, _mtu - sizeof(*ip))`, where the difference is unsigned
      let copied ← cells icmp (min ipLen ((env.mtu + 2 ^ 32 - sizeofIn6Header) % 2 ^ 32))
      return some { processed := true, router := g, sent := some (.echoReply copied code) }
    else pure (some { processed := true, router := g })
  else if type = ndRouterAdvert then do
    let a ← cell 8
    let b ← cell 9
    let hopLimit ← cell 7
    if in6IsAddrLinklocal a b ∧ hopLimit = 255 then
      (routerAdvertR fuel icmp len g).andThen fun g => pure (some { processed := true, router := g })
    else return some { processed := true, router := g }
  else if type = ndNeighborSolicit then do
    let target ← cells (icmp + 8) 16
    return some { processed := true, router := g, sent := if target = env.in6addrMyIp then some .neighborAdvert else none }
  else pure (some { processed := true, router := g })

/-- `icmp6_handler`, where `pkt` is the entry of the list for the message at `icmp`. -/
def icmp6HandlerR (env : Env) (fuel : ℕ) (g : Router) (icmp : ℕ) (pkt : PktSplit) : Reads Byte (Option Outcome) := do
  let dst ← cells 24 16
  if pkt.len.toNat < sizeofUnused then return some { tooshort := true, router := g }
  else do
    let hi ← cell 4
    let lo ← cell 5
    let ok ← ip6IcmpChecksumR icmp (hi ++ lo).toNat
    if ok then do
      let type ← cell icmp
      let code ← cell (icmp + 1)
      switchR env fuel icmp pkt.len.toNat (hi ++ lo).toNat (dst = env.in6addrMyIp) g type code
    else return some { checksum := true, router := g }

/-- `pkt_get_type_in`: the list ends at an entry without data. -/
def pktGetTypeIn (l : List PktSplit) (type : Component) : Option PktSplit :=
  (l.takeWhile (·.data.isSome)).find? (·.type = type)

/-- `_ip6_handler` calls the handler if the list has an entry of its type. -/
def deliverR (env : Env) (fuel : ℕ) (g : Router) (l : List PktSplit) : Reads Byte (Option Outcome) :=
  match pktGetTypeIn l .ip6Icmp with
  | none => pure (some { router := g })
  | some pkt => icmp6HandlerR env fuel g (pkt.data.getD 0) pkt

/-! ## The law -/

/-- The length of an extension header at `p`; `none` for what is none. -/
def extLen (ip : Packet) (nxtHd : Byte) (p : ℕ) : Option ℕ :=
  if nxtHd = ip6NextHop ∨ nxtHd = ip6NextRouting ∨ nxtHd = ip6NextDest then some (((ip (p + 1)).toNat + 1) * 8)
  else if nxtHd = ip6NextFragment then some 8
  else if nxtHd = ip6NextAuth then some (((ip (p + 1)).toNat + 2) * 4)
  else none

/-- From the header at `p`, of the type `nxtHd`, extension headers lead to an ICMPv6 message at `q`. -/
inductive Carries (ip : Packet) (q : ℕ) : (nxtHd : Byte) → (p : ℕ) → Prop
  | message : Carries ip q ip6NextIcmp q
  | ext {nxtHd : Byte} {p len : ℕ} : extLen ip nxtHd p = some len → Carries ip q (ip p) (p + len) → Carries ip q nxtHd p

/-- Where the payload ends. -/
def payloadEnd (ip : Packet) : ℕ := sizeofIn6Header + (in6Len ip).toNat

/-- The bytes of the IPv6 header and of the message at `q`. -/
def Own (ip : Packet) (q i : ℕ) : Prop := i < sizeofIn6Header ∨ q ≤ i ∧ i < payloadEnd ip

/-- The pseudo header, with a length of 32 bits. -/
def pseudo (ip : Packet) : List Byte :=
  Mem.slice ip 8 16 ++ Mem.slice ip 24 16 ++ [0, 0] ++ bytes16 (in6Len ip) ++ [0, 0, 0, ip6NextIcmp]

/-- The sum over pseudo header and payload is right. -/
def SumRight (ip : Packet) : Prop := Ones (bigSum (pseudo ip ++ Mem.slice ip sizeofIn6Header (in6Len ip).toNat))

/-- The checksum of a message without extension headers verifies: it has one, and the sum is right. -/
def Verifies (ip : Packet) : Prop := 4 ≤ (in6Len ip).toNat ∧ SumRight ip

/-- The handler does what it should with a packet that has its message at `q`. -/
def Handled (env : Env) (g : Router) (ip : Packet) (q : ℕ) : Prop :=
  ∃ fuel out, Gives (Own ip q) ip (deliverR env fuel g (splitIp6 ip)) out ∧
    (ip 6 = ip6NextIcmp → (out.processed = true ↔ Verifies ip))

/-- The options from `opt` on come to `stop`, and what is read of them is inside the payload. -/
inductive OptionsEnd (ip : Packet) (stop : ℕ) : (opt : ℕ) → Prop
  | done {opt : ℕ} : stop ≤ opt → OptionsEnd ip stop opt
  | next {opt : ℕ} : opt < stop → opt + 1 < payloadEnd ip →
      (ip opt = ndOptPrefixInformation → ip (opt + 1) = 4 → opt + 32 ≤ payloadEnd ip) →
      OptionsEnd ip stop (opt + 8 * (ip (opt + 1)).toNat) → OptionsEnd ip stop opt

/-- A router advertisement from a neighbour. -/
def Advertises (ip : Packet) : Prop :=
  ip 40 = ndRouterAdvert ∧ in6IsAddrLinklocal (ip 8) (ip 9) = true ∧ ip 7 = 255

/-- The options of an advertisement, as the handler delimits them: by the code of the message. -/
def optionsStop (ip : Packet) : ℕ := sizeofIn6Header + 8 * ((ip 41).toNat + 1)

/-- The packets that the handler can take. -/
def Fit (ip : Packet) : Prop :=
  if ip 6 = ip6NextIcmp then
    (in6Len ip).toNat = 0 ∨ ¬ SumRight ip ∨ 4 ≤ (in6Len ip).toNat ∧
      (Advertises ip → 8 ≤ (in6Len ip).toNat ∧ OptionsEnd ip (optionsStop ip) (sizeofIn6Header + sizeofRadvert)) ∧
      (ip 40 = ndNeighborSolicit → 24 ≤ (in6Len ip).toNat)
  else pktGetTypeIn (splitIp6 ip) .ip6Icmp = none

variable {env : Env} {g g' : Router} {ip : Packet} {q p i n fuel opt stop len icmp : ℕ} {nxtHd type pilen code : Byte}
  {out : Outcome} {entry pkt : PktSplit} {forMe : Bool}

/-! ## Where the message is -/

theorem extLen_pos (h : extLen ip nxtHd p = some len) : 0 < len := by
  unfold extLen at h
  split_ifs at h <;> cases h <;> omega

theorem Carries.le (h : Carries ip q nxtHd p) : p ≤ q := by
  induction h with
  | message => exact le_rfl
  | ext _ _ ih => exact le_trans (Nat.le_add_right ..) ih

/-- Only a message without extension headers is right behind the IPv6 header. -/
theorem Carries.place (h : Carries ip q (ip 6) sizeofIn6Header) :
    ip 6 = ip6NextIcmp ∧ q = sizeofIn6Header ∨ ip 6 ≠ ip6NextIcmp ∧ sizeofIn6Header < q := by
  generalize hnxt : ip 6 = nxtHd at h
  generalize hplace : sizeofIn6Header = p at h
  cases h with
  | message => exact .inl ⟨rfl, rfl⟩
  | ext hlen hrest =>
    refine .inr ⟨?_, lt_of_lt_of_le (Nat.lt_add_of_pos_right (extLen_pos hlen)) hrest.le⟩
    rintro rfl
    cases hlen

/-- The entry of an ICMPv6 header. -/
def icmpEntry (ip : Packet) : PktSplit := ⟨.ip6Icmp, some sizeofIn6Header, BitVec.ofNat 32 (stride ip)⟩

theorem icmpEntry_len : (icmpEntry ip).len.toNat = 8 * ((ip 41).toNat + 1) := by
  have hlt := (ip 41).isLt
  have hstride : stride ip = ((ip 41).toNat + 1) * 8 := rfl
  show (BitVec.ofNat 32 (stride ip)).toNat = _
  rw [BitVec.toNat_ofNat, hstride, Nat.mod_eq_of_lt (by omega), Nat.mul_comm]

/-- Any entry of that type is this one. -/
theorem eq_icmpEntry : ∀ (nxtHd : Byte) (bp : ℕ), ∀ entry ∈ splitWalk ip nxtHd bp, entry.type = .ip6Icmp →
    entry = icmpEntry ip ∧ bp < (in6Len ip).toNat := by
  intro nxtHd bp
  induction hn : (in6Len ip).toNat - bp using Nat.strong_induction_on generalizing nxtHd bp with
  | _ n ih =>
    intro entry hmem htype
    rcases walk_cases ip nxtHd bp with ⟨hext, hbp⟩ | ⟨hlast, hne, hbp⟩ | hstop
    · obtain ⟨first, hfirst, hwalk⟩ := splitWalk_ext hext hbp
      have hstride : 8 ≤ stride ip := stride_ge
      rw [hwalk] at hmem
      rcases List.mem_cons.mp hmem with rfl | hmem
      · unfold extEntry at hfirst
        split_ifs at hfirst <;> obtain rfl := Option.some_inj.mp hfirst <;> cases htype
      · exact ⟨(ih ((in6Len ip).toNat - (bp + stride ip)) (by omega) _ _ rfl entry hmem htype).1, hbp⟩
    · refine ⟨?_, hbp⟩
      have hnone : extEntry ip nxtHd = none := by
        rw [← Option.not_isSome_iff_eq_none, extEntry_isSome hne]
        exact hlast
      rw [splitWalk, dif_pos ⟨hne, hbp⟩, hnone] at hmem
      unfold tcpEntries at hmem
      split_ifs at hmem <;> simp only [List.mem_cons, List.not_mem_nil, or_false] at hmem
      · rcases hmem with rfl | rfl <;> cases htype
      · subst hmem
        cases htype
      · subst hmem
        cases htype
      · exact hmem
      · subst hmem
        cases htype
      · subst hmem
        cases htype
    · rw [splitWalk_nil hstop] at hmem
      cases hmem

/-- What is found is this entry, in a packet that is not empty. -/
theorem eq_of_pktGetTypeIn (h : pktGetTypeIn (splitIp6 ip) .ip6Icmp = some pkt) :
    pkt = icmpEntry ip ∧ 0 < (in6Len ip).toNat := by
  unfold pktGetTypeIn at h
  have htype : pkt.type = .ip6Icmp := by simpa using List.find?_some h
  have hmem : pkt ∈ splitIp6 ip := List.takeWhile_subset _ (List.mem_of_find?_eq_some h)
  rcases List.mem_cons.mp hmem with rfl | hmem
  · cases htype
  · exact eq_icmpEntry _ _ pkt hmem htype

/-- Without extension headers the entry is there, unless the packet is empty. -/
theorem pktGetTypeIn_icmp (h : ip 6 = ip6NextIcmp) (hpos : 0 < (in6Len ip).toNat) :
    pktGetTypeIn (splitIp6 ip) .ip6Icmp = some (icmpEntry ip) := by
  have hwalk : splitWalk ip ip6NextIcmp 0 = [icmpEntry ip] := by
    rw [splitWalk, dif_pos ⟨by decide, hpos⟩, if_neg (by decide), if_neg (by decide), if_pos rfl]
    rfl
  unfold pktGetTypeIn splitIp6
  rw [h, hwalk]
  rfl

theorem pktGetTypeIn_empty (hempty : (in6Len ip).toNat = 0) : pktGetTypeIn (splitIp6 ip) .ip6Icmp = none := by
  cases hpkt : pktGetTypeIn (splitIp6 ip) .ip6Icmp with
  | none => rfl
  | some pkt => exact absurd (eq_of_pktGetTypeIn hpkt).2 (by omega)

/-! ## What is read -/

/-- Without extension headers the handler may read up to the end. -/
theorem own_iff : Own ip sizeofIn6Header i ↔ i < payloadEnd ip := by
  unfold Own payloadEnd
  omega

theorem within_header (hn : i + n ≤ sizeofIn6Header) : Within (Own ip q) ip (cells i n) :=
  within_cells.mpr fun k hk => .inl (by omega)

/-- Many cells, inside. -/
theorem within_payload : Within (Own ip sizeofIn6Header) ip (cells i n) ↔ (0 < n → i + n ≤ payloadEnd ip) := by
  rw [within_cells]
  constructor
  · intro h hn
    have hlast := own_iff.mp (h (n - 1) (by omega))
    omega
  · intro h k hk
    exact own_iff.mpr (by have := h (by omega); omega)

/-- The pseudo header of `_ip6_checksum`, with a length of 16 bits. -/
def pseudo16 (ip : Packet) : List Byte :=
  Mem.slice ip 8 16 ++ Mem.slice ip 24 16 ++ bytes16 (in6Len ip) ++ [0, 0, 0, ip6NextIcmp]

theorem littleSum_pseudo : littleSum (pseudo ip) = littleSum (pseudo16 ip) := by
  have heven : (Mem.slice ip 8 16 ++ Mem.slice ip 24 16).length % 2 = 0 := by simp
  have hzero : ∀ l : List Byte, littleSum ([0, 0] ++ l) = littleSum l := fun l => by simp [littleSum]
  unfold pseudo pseudo16
  simp only [List.append_assoc _ _ (_ : List Byte)] at heven ⊢
  simp only [← List.append_assoc (Mem.slice ip 8 16), OnesSum.littleSum_append heven, hzero]

theorem pseudo16_pos : 0 < littleSum (pseudo16 ip) := by
  unfold pseudo16
  rw [OnesSum.littleSum_append (by simp [bytes16])]
  have : 0 < littleSum [0, 0, 0, ip6NextIcmp] := by decide
  omega

/-- What completes a sum is 65535 if the sum is complete. -/
theorem ones_iff_complement {a c : ℕ} (ha : 0 < a) (hpos : 0 < c) (hle : c ≤ 65535) (h : Ones (a + c)) :
    c = 65535 ↔ Ones a := by
  unfold Ones at h ⊢
  omega

theorem eval_ip6IcmpChecksumR : eval ip (ip6IcmpChecksumR icmp n) =
    ip6IcmpChecksum (Mem.slice ip 8 16) (Mem.slice ip 24 16) (Mem.slice ip icmp n) n := by
  unfold ip6IcmpChecksumR
  rw [eval_bind, eval_cells, eval_bind, eval_cells, eval_bind, eval_cells, eval_pure]

/-- **The checksum verifies** exactly if the sum is right. -/
theorem eval_checksum : eval ip (ip6IcmpChecksumR sizeofIn6Header (in6Len ip).toNat) = true ↔ SumRight ip := by
  have hlt := (in6Len ip).isLt
  have hlen : (pseudo ip).length = 40 := by simp [pseudo, bytes16]
  have hlen16 : (pseudo16 ip).length = 38 := by simp [pseudo16, bytes16]
  have hsum : 0 < littleSum (pseudo16 ip) := pseudo16_pos
  obtain ⟨hpos, hle, hones⟩ := @Udp.ip6Sum_spec (pseudo16 ip) (Mem.slice ip sizeofIn6Header (in6Len ip).toNat)
    hsum (by omega) (by rw [Mem.length_slice]; omega)
  rw [eval_ip6IcmpChecksumR]
  unfold SumRight ip6IcmpChecksum
  rw [decide_eq_true_iff, BitVec.ofNat_toNat, BitVec.setWidth_eq, ← OnesSum.ones_little,
    OnesSum.littleSum_append (by rw [hlen]), littleSum_pseudo]
  exact ones_iff_complement (Nat.add_pos_left hsum _) hpos hle hones

theorem within_checksum : Within (Own ip sizeofIn6Header) ip (ip6IcmpChecksumR sizeofIn6Header (in6Len ip).toNat) := by
  unfold ip6IcmpChecksumR
  rw [within_bind, within_bind, within_bind]
  exact ⟨within_header (by decide), within_header (by decide), within_payload.mpr fun _ => le_rfl, within_pure⟩

/-! ## Options -/

theorem within_optionR : Within (Own ip sizeofIn6Header) ip (optionR opt type pilen g) ↔
    (type = ndOptPrefixInformation → pilen = 4 → opt + 32 ≤ payloadEnd ip) := by
  unfold optionR
  by_cases h : type = ndOptPrefixInformation ∧ pilen = 4
  · rw [if_pos h, within_bind, within_cell, own_iff, within_bind, within_payload, and_iff_left within_pure]
    constructor
    · rintro ⟨-, hpfx⟩ _ _
      exact hpfx (by decide)
    · intro hle
      have hend := hle h.1 h.2
      exact ⟨by omega, fun _ => by omega⟩
  · rw [if_neg h]
    exact iff_of_true within_pure fun htype hlen => absurd ⟨htype, hlen⟩ h

/-- One turn of `parse_options`. -/
theorem gives_option (hlt : opt < stop) :
    Gives (Own ip sizeofIn6Header) ip (parseOptionsR stop (fuel + 1) opt g) g' ↔ opt + 1 < payloadEnd ip ∧
      (ip opt = ndOptPrefixInformation → ip (opt + 1) = 4 → opt + 32 ≤ payloadEnd ip) ∧
      Gives (Own ip sizeofIn6Header) ip (parseOptionsR stop fuel (opt + 8 * (ip (opt + 1)).toNat)
        (eval ip (optionR opt (ip opt) (ip (opt + 1)) g))) g' := by
  rw [parseOptionsR, if_pos hlt, gives_cell, gives_cell, gives_bind, own_iff, own_iff, within_optionR]
  exact and_iff_right_of_imp fun h => by omega

/-- Options that are parsed come to the end. -/
theorem optionsEnd_of_gives (h : Gives (Own ip sizeofIn6Header) ip (parseOptionsR stop fuel opt g) g') :
    OptionsEnd ip stop opt := by
  induction fuel generalizing opt g with
  | zero => exact absurd h not_gives_none
  | succ fuel ih =>
    by_cases hlt : opt < stop
    · obtain ⟨hlen, hpfx, hrest⟩ := (gives_option hlt).mp h
      exact .next hlt hlen hpfx (ih hrest)
    · exact .done (not_lt.mp hlt)

/-- Options that come to the end are parsed. -/
theorem gives_of_optionsEnd (h : OptionsEnd ip stop opt) :
    ∃ fuel, ∀ g, ∃ g', Gives (Own ip sizeofIn6Header) ip (parseOptionsR stop fuel opt g) g' := by
  induction h with
  | done hle =>
    refine ⟨1, fun g => ⟨g, ?_⟩⟩
    rw [parseOptionsR, if_neg (not_lt.mpr hle)]
    exact gives_pure.mpr rfl
  | @next opt hlt hlen hpfx _ ih =>
    obtain ⟨fuel, ih⟩ := ih
    refine ⟨fuel + 1, fun g => ?_⟩
    obtain ⟨g', hg⟩ := ih (eval ip (optionR opt (ip opt) (ip (opt + 1)) g))
    exact ⟨g', (gives_option hlt).mpr ⟨hlen, hpfx, hg⟩⟩

/-! ## The types -/

/-- The fields of an advertisement, and its options. -/
theorem advert_of_gives (h : Gives (Own ip sizeofIn6Header) ip
    (routerAdvertR fuel sizeofIn6Header (8 * ((ip 41).toNat + 1)) g) g') :
    8 ≤ (in6Len ip).toNat ∧ OptionsEnd ip (optionsStop ip) (sizeofIn6Header + sizeofRadvert) := by
  unfold routerAdvertR at h
  rw [gives_cell, gives_cell, gives_cell, own_iff, own_iff, own_iff] at h
  obtain ⟨-, -, hlifetime, hrest⟩ := h
  have hlen : 8 ≤ (in6Len ip).toNat := by
    unfold payloadEnd at hlifetime
    omega
  refine ⟨hlen, ?_⟩
  by_cases hopt : sizeofRadvert < 8 * ((ip 41).toNat + 1)
  · have hstop : sizeofIn6Header + sizeofRadvert + (8 * ((ip 41).toNat + 1) - sizeofRadvert) = optionsStop ip := by
      unfold optionsStop
      omega
    rw [if_pos hopt, hstop] at hrest
    exact optionsEnd_of_gives hrest
  · refine .done ?_
    unfold optionsStop
    omega

/-- An advertisement with its fields and with options that come to the end is taken. -/
theorem gives_of_advert (hlen : 8 ≤ (in6Len ip).toNat)
    (hend : OptionsEnd ip (optionsStop ip) (sizeofIn6Header + sizeofRadvert)) :
    ∃ fuel, ∀ g, ∃ g', Gives (Own ip sizeofIn6Header) ip
      (routerAdvertR fuel sizeofIn6Header (8 * ((ip 41).toNat + 1)) g) g' := by
  obtain ⟨fuel, hfuel⟩ := gives_of_optionsEnd hend
  refine ⟨fuel, fun g => ?_⟩
  have hown : ∀ i < 48, Own ip sizeofIn6Header i := fun i hi => own_iff.mpr (by unfold payloadEnd sizeofIn6Header; omega)
  unfold routerAdvertR
  simp only [gives_cell, hown (sizeofIn6Header + 4) (by decide), hown (sizeofIn6Header + 6) (by decide),
    hown (sizeofIn6Header + 7) (by decide), true_and]
  by_cases hopt : sizeofRadvert < 8 * ((ip 41).toNat + 1)
  · have hstop : sizeofIn6Header + sizeofRadvert + (8 * ((ip 41).toNat + 1) - sizeofRadvert) = optionsStop ip := by
      unfold optionsStop
      omega
    rw [if_pos hopt, hstop]
    exact hfuel _
  · rw [if_neg hopt]
    exact ⟨_, gives_pure.mpr rfl⟩

/-- What the types read besides type, code and header. -/
structure TypeFits (ip : Packet) : Prop where
  advert : Advertises ip → 8 ≤ (in6Len ip).toNat ∧ OptionsEnd ip (optionsStop ip) (sizeofIn6Header + sizeofRadvert)
  solicit : ip 40 = ndNeighborSolicit → 24 ≤ (in6Len ip).toNat

/-- What the `switch` has done. -/
theorem typeFits_of_gives (h : Gives (Own ip sizeofIn6Header) ip (switchR env fuel sizeofIn6Header
    (8 * ((ip 41).toNat + 1)) (in6Len ip).toNat forMe g (ip 40) code) out) : out.processed = true ∧ TypeFits ip := by
  unfold switchR at h
  by_cases hecho : ip 40 = icmp6EchoRequest
  · have hfits : TypeFits ip :=
      ⟨fun hadv => absurd (hecho.symm.trans hadv.1) (by decide), fun hns => absurd (hecho.symm.trans hns) (by decide)⟩
    rw [if_pos hecho] at h
    cases forMe with
    | false =>
      cases gives_pure.mp h
      exact ⟨rfl, hfits⟩
    | true =>
      rw [if_pos rfl, gives_bind] at h
      cases gives_pure.mp h.2
      exact ⟨rfl, hfits⟩
  rw [if_neg hecho] at h
  by_cases hadvert : ip 40 = ndRouterAdvert
  · rw [if_pos hadvert, gives_cell, gives_cell, gives_cell] at h
    obtain ⟨-, -, -, h⟩ := h
    by_cases hlocal : in6IsAddrLinklocal (ip 8) (ip 9) = true ∧ ip 7 = 255
    · rw [if_pos hlocal, gives_andThen] at h
      obtain ⟨g', hg, hout⟩ := h
      cases gives_pure.mp hout
      exact ⟨rfl, fun _ => advert_of_gives hg, fun hns => absurd (hadvert.symm.trans hns) (by decide)⟩
    · rw [if_neg hlocal] at h
      cases gives_pure.mp h
      exact ⟨rfl, fun hadv => absurd hadv.2 hlocal, fun hns => absurd (hadvert.symm.trans hns) (by decide)⟩
  rw [if_neg hadvert] at h
  by_cases hsolicit : ip 40 = ndNeighborSolicit
  · rw [if_pos hsolicit, gives_bind, within_payload] at h
    obtain ⟨htarget, hout⟩ := h
    cases gives_pure.mp hout
    have hend := htarget (by decide)
    unfold payloadEnd sizeofIn6Header at hend
    exact ⟨rfl, fun hadv => absurd hadv.1 hadvert, fun _ => by omega⟩
  · rw [if_neg hsolicit] at h
    cases gives_pure.mp h
    exact ⟨rfl, fun hadv => absurd hadv.1 hadvert, fun hns => absurd hns hsolicit⟩

/-- The `switch` deals with a message whose type fits. -/
theorem gives_of_typeFits (env : Env) (g : Router) (code : Byte) (h : TypeFits ip) : ∃ fuel, ∀ forMe, ∃ out, Gives (Own ip sizeofIn6Header) ip
    (switchR env fuel sizeofIn6Header (8 * ((ip 41).toNat + 1)) (in6Len ip).toNat forMe g (ip 40) code) out ∧
      out.processed = true := by
  have hheader : ∀ i < sizeofIn6Header, Own ip sizeofIn6Header i := fun i hi => .inl hi
  unfold switchR
  by_cases hecho : ip 40 = icmp6EchoRequest
  · refine ⟨0, fun forMe => ?_⟩
    rw [if_pos hecho]
    cases forMe with
    | false => exact ⟨_, gives_pure.mpr rfl, rfl⟩
    | true =>
      rw [if_pos rfl]
      refine ⟨_, gives_bind.mpr ⟨within_payload.mpr fun _ => ?_, gives_pure.mpr rfl⟩, rfl⟩
      unfold payloadEnd
      omega
  simp only [if_neg hecho]
  by_cases hadvert : ip 40 = ndRouterAdvert
  · simp only [if_pos hadvert, gives_cell, hheader 8 (by decide), hheader 9 (by decide), hheader 7 (by decide), true_and]
    by_cases hlocal : in6IsAddrLinklocal (ip 8) (ip 9) = true ∧ ip 7 = 255
    · obtain ⟨hlen, hend⟩ := h.advert ⟨hadvert, hlocal⟩
      obtain ⟨fuel, hfuel⟩ := gives_of_advert hlen hend
      obtain ⟨g', hg⟩ := hfuel g
      refine ⟨fuel, fun forMe => ?_⟩
      rw [if_pos hlocal]
      exact ⟨_, gives_andThen.mpr ⟨g', hg, gives_pure.mpr rfl⟩, rfl⟩
    · refine ⟨0, fun forMe => ?_⟩
      rw [if_neg hlocal]
      exact ⟨_, gives_pure.mpr rfl, rfl⟩
  simp only [if_neg hadvert]
  refine ⟨0, fun forMe => ?_⟩
  by_cases hsolicit : ip 40 = ndNeighborSolicit
  · have hlen := h.solicit hsolicit
    rw [if_pos hsolicit]
    refine ⟨_, gives_bind.mpr ⟨within_payload.mpr fun _ => ?_, gives_pure.mpr rfl⟩, rfl⟩
    unfold payloadEnd sizeofIn6Header
    omega
  · rw [if_neg hsolicit]
    exact ⟨_, gives_pure.mpr rfl, rfl⟩

/-! ## The handler -/

/-- The handler on a message at once behind the IPv6 header. -/
theorem gives_handler : Gives (Own ip sizeofIn6Header) ip (icmp6HandlerR env fuel g sizeofIn6Header (icmpEntry ip)) out ↔
    SumRight ip ∧ 2 ≤ (in6Len ip).toNat ∧ Gives (Own ip sizeofIn6Header) ip (switchR env fuel sizeofIn6Header
      (8 * ((ip 41).toNat + 1)) (in6Len ip).toNat (Mem.slice ip 24 16 = env.in6addrMyIp) g (ip 40) (ip 41)) out ∨
    ¬ SumRight ip ∧ out = { checksum := true, router := g } := by
  have hlong : ¬ 8 * ((ip 41).toNat + 1) < sizeofUnused := by
    unfold sizeofUnused
    omega
  have hword : ip 4 ++ ip 5 = in6Len ip := rfl
  have hheader : ∀ i < sizeofIn6Header, Own ip sizeofIn6Header i := fun i hi => .inl hi
  unfold icmp6HandlerR
  rw [gives_bind, and_iff_right (within_header (by decide)), icmpEntry_len, if_neg hlong, gives_cell,
    and_iff_right (hheader 4 (by decide)), gives_cell, and_iff_right (hheader 5 (by decide)), hword, gives_bind,
    and_iff_right within_checksum, eval_cells]
  by_cases hsum : SumRight ip
  · rw [if_pos (eval_checksum.mpr hsum), gives_cell, gives_cell, own_iff, own_iff,
      or_iff_left fun h => h.1 hsum, and_iff_right hsum, ← and_assoc]
    refine and_congr_left fun _ => ?_
    unfold payloadEnd sizeofIn6Header
    omega
  · rw [if_neg (mt eval_checksum.mp hsum), or_iff_right fun h => hsum h.1, and_iff_right hsum]
    exact gives_pure.trans eq_comm

/-- With extension headers the handler reads bytes that are not its own. -/
theorem not_gives_handler (hq : sizeofIn6Header < q) (hpos : 0 < (in6Len ip).toNat) :
    ¬ Gives (Own ip q) ip (icmp6HandlerR env fuel g sizeofIn6Header (icmpEntry ip)) out := by
  have hlong : ¬ 8 * ((ip 41).toNat + 1) < sizeofUnused := by
    unfold sizeofUnused
    omega
  unfold icmp6HandlerR
  rw [gives_bind, icmpEntry_len, if_neg hlong, gives_cell, gives_cell, gives_bind]
  rintro ⟨-, -, -, hchecksum, -⟩
  unfold ip6IcmpChecksumR at hchecksum
  rw [within_bind, within_bind, within_bind] at hchecksum
  rcases within_cells.mp hchecksum.2.2.1 0 hpos with h | h
  · exact absurd h (lt_irrefl _)
  · omega

/-- A packet that is handled as it should fits. -/
theorem fit_of_handled (hcarries : Carries ip q (ip 6) sizeofIn6Header) (h : Handled env g ip q) : Fit ip := by
  obtain ⟨fuel, out, hgives, hprocessed⟩ := h
  unfold Fit
  unfold deliverR at hgives
  rcases hcarries.place with ⟨hicmp, rfl⟩ | ⟨hext, hq⟩
  · rw [if_pos hicmp]
    rcases Nat.eq_zero_or_pos (in6Len ip).toNat with hempty | hpos
    · exact .inl hempty
    by_cases hsum : SumRight ip
    · rw [pktGetTypeIn_icmp hicmp hpos] at hgives
      obtain ⟨-, -, hswitch⟩ | ⟨hwrong, -⟩ := gives_handler.mp hgives
      · obtain ⟨hout, hfits⟩ := typeFits_of_gives hswitch
        exact .inr (.inr ⟨((hprocessed hicmp).mp hout).1, hfits.advert, hfits.solicit⟩)
      · exact absurd hsum hwrong
    · exact .inr (.inl hsum)
  · rw [if_neg hext]
    cases hpkt : pktGetTypeIn (splitIp6 ip) .ip6Icmp with
    | none => rfl
    | some pkt =>
      rw [hpkt] at hgives
      obtain ⟨rfl, hpos⟩ := eq_of_pktGetTypeIn hpkt
      exact absurd hgives (not_gives_handler hq hpos)

/-- A packet that fits is handled as it should. -/
theorem handled_of_fit (hcarries : Carries ip q (ip 6) sizeofIn6Header) (h : Fit ip) : Handled env g ip q := by
  unfold Fit at h
  rcases hcarries.place with ⟨hicmp, rfl⟩ | ⟨hext, hq⟩
  · rw [if_pos hicmp] at h
    rcases Nat.eq_zero_or_pos (in6Len ip).toNat with hempty | hpos
    · refine ⟨0, { router := g }, ?_, fun _ => iff_of_false Bool.noConfusion fun hver => ?_⟩
      · unfold deliverR
        rw [pktGetTypeIn_empty hempty]
        exact gives_pure.mpr rfl
      · have := hver.1
        omega
    have hdeliver (fuel : ℕ) : deliverR env fuel g (splitIp6 ip) =
        icmp6HandlerR env fuel g sizeofIn6Header (icmpEntry ip) := by
      unfold deliverR
      rw [pktGetTypeIn_icmp hicmp hpos]
      rfl
    by_cases hsum : SumRight ip
    · obtain hempty | hwrong | ⟨hlen, hadvert, hsolicit⟩ := h
      · omega
      · exact absurd hsum hwrong
      obtain ⟨fuel, hfuel⟩ := gives_of_typeFits env g (ip 41) ⟨hadvert, hsolicit⟩
      obtain ⟨out, hout, hprocessed⟩ := hfuel (Mem.slice ip 24 16 = env.in6addrMyIp)
      refine ⟨fuel, out, ?_, fun _ => iff_of_true hprocessed ⟨hlen, hsum⟩⟩
      rw [hdeliver, gives_handler]
      exact .inl ⟨hsum, by omega, hout⟩
    · refine ⟨0, { checksum := true, router := g }, ?_, fun _ => iff_of_false Bool.noConfusion fun hver => hsum hver.2⟩
      rw [hdeliver, gives_handler]
      exact .inr ⟨hsum, rfl⟩
  · rw [if_neg hext] at h
    refine ⟨0, { router := g }, ?_, fun hicmp => absurd hicmp hext⟩
    unfold deliverR
    rw [h]
    exact gives_pure.mpr rfl

/-- Which packets the handler can take. -/
theorem icmp6_handled_iff (env : Env) (g : Router) (ip : Packet) (q : ℕ)
    (hcarries : Carries ip q (ip 6) sizeofIn6Header) : Handled env g ip q ↔ Fit ip :=
  ⟨fit_of_handled hcarries, handled_of_fit hcarries⟩

/-- An echo request of 8 bytes. -/
def ping : Packet := fun i =>
  ([0x60, 0, 0, 0, 0, 8, 58, 64, 0xFE, 0x80] ++ List.replicate 13 0 ++ [1] ++ [0xFE, 0x80] ++ List.replicate 13 0 ++ [2] ++
    [128, 0, 0x82, 0xB7, 0, 0, 0, 1] : List Byte).getD i 0

theorem icmp6_handled_ping : Carries ping sizeofIn6Header (ping 6) sizeofIn6Header ∧
    Handled { in6addrMyIp := Mem.slice ping 24 16 } {} ping sizeofIn6Header := by
  have hcarries : Carries ping sizeofIn6Header (ping 6) sizeofIn6Header := .message
  refine ⟨hcarries, (icmp6_handled_iff _ _ ping sizeofIn6Header hcarries).mpr ?_⟩
  unfold Fit
  rw [if_pos (by decide)]
  exact .inr (.inr ⟨by decide, fun h => absurd h.1 (by decide), fun h => absurd h (by decide)⟩)

/-- A router advertisement with an option of length 0, and the code 2. -/
def emptyOption : Packet := fun i =>
  ([0x60, 0, 0, 0, 0, 24, 58, 255, 0xFE, 0x80] ++ List.replicate 13 0 ++ [1] ++ [0xFF, 2] ++ List.replicate 13 0 ++ [1] ++
    [134, 2, 0x3B, 0x25, 64, 0, 0, 0, 0, 0, 0, 0, 0, 0, 0, 0, 1, 0, 0, 0, 0, 0, 0, 0] : List Byte).getD i 0

/-- The walk stays at the option. -/
theorem emptyOption_stays (h : OptionsEnd emptyOption 64 opt) : opt ≠ 56 := by
  induction h with
  | done hle =>
    rintro rfl
    omega
  | next _ _ _ _ ih =>
    rintro rfl
    exact ih (by decide)

theorem emptyOption_never_ends : Carries emptyOption sizeofIn6Header (emptyOption 6) sizeofIn6Header ∧
    ¬ Handled { in6addrMyIp := List.replicate 16 0 } {} emptyOption sizeofIn6Header := by
  have hcarries : Carries emptyOption sizeofIn6Header (emptyOption 6) sizeofIn6Header := .message
  refine ⟨hcarries, fun hhandled => ?_⟩
  have hfit := fit_of_handled hcarries hhandled
  unfold Fit at hfit
  rw [if_pos (by decide)] at hfit
  obtain hempty | hwrong | ⟨-, hadvert, -⟩ := hfit
  · exact absurd hempty (by decide)
  · refine hwrong ?_
    unfold SumRight Ones
    decide
  · exact emptyOption_stays (hadvert ⟨by decide, by decide, by decide⟩).2 rfl

end Watt32.Icmp6
