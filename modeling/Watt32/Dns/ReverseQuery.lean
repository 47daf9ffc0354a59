import Watt32.Dns.Pack
import Watt32.Dns.Response

/-!
# Reverse questions

`query_init_ip4` and `query_init_ip6` of `udp_rev.c`: the question for the name of an address.

* `queryInitIp4`, `queryInitIp6`: the functions.
* `reverseName`: the name in `in-addr.arpa` or `ip6.arpa`; `AsksFor`: a question for a name.
* **`reverse_query_iff`**: which addresses are asked for.
-/

namespace Watt32.Dns

/-! ## The source -/

/-- Byte `i` of a number, from the low end. -/
def octet (x : Dword) (i : ℕ) : Byte := (x >>> (8 * i)).setWidth 8

/-- `ntohl`. -/
def ntohl (x : Dword) : Dword := octet x 0 ++ octet x 1 ++ octet x 2 ++ octet x 3

/-- The characters that `itoa (x, s, 10)` writes before the NUL. -/
def decimal (x : Byte) : List Byte := (Nat.toDigits 10 x.toNat).map fun c => BitVec.ofNat 8 c.toNat

/-- `q->head`: `ident` as it is, the other fields in network order. -/
def queryHead (ident : Word) : List Byte := [ident.setWidth 8, (ident >>> 8).setWidth 8, 1, 0, 0, 1, 0, 0, 0, 0, 0, 0]

/-- `"\7in-addr\4arpa"` and `"\3ip6\4arpa"`. -/
def inAddrArpa : List Byte := [7, 105, 110, 45, 97, 100, 100, 114, 4, 97, 114, 112, 97]
def ip6Arpa : List Byte := [3, 105, 112, 54, 4, 97, 114, 112, 97]

/-- `hex_chars_lower`. -/
def hexCharsLower (i : ℕ) : Byte := BitVec.ofNat 8 (if i < 10 then 48 + i else 87 + i)

/-- `(x < 10) ? 1 : (x < 100) ? 2 : 3`. -/
def numDigits (x : Byte) : ℕ := if x < 10 then 1 else if x < 100 then 2 else 3

/-- The loop over the octets: `n` of them are left. -/
def octetLoop : (n c : ℕ) → (ip : Dword) → (q : ℕ → Byte) → ℕ × (ℕ → Byte)
  | 0, c, _, q => (c, q)
  | n + 1, c, ip, q =>
    let x := octet ip 0
    let q := Mem.put q c [BitVec.ofNat 8 (numDigits x)]
    let q := Mem.put q (c + 1) (decimal x ++ [0])
    octetLoop n (c + (numDigits x + 1)) (ip >>> 8) q

/-- The loop over the bytes of an IPv6 address from the last one on: `n` of them are left. -/
def nibbleLoop (ip : ℕ → Byte) : (n c : ℕ) → (q : ℕ → Byte) → ℕ × (ℕ → Byte)
  | 0, c, q => (c, q)
  | n + 1, c, q =>
    nibbleLoop ip n (c + 3)
      (Mem.put q c [2, hexCharsLower (ip n >>> 4).toNat, hexCharsLower (ip n &&& 15).toNat])

/-- The end of both functions: `strcpy` of the domain, type PTR and class IN. -/
def closeQuery (domain : List Byte) (c : ℕ) (q : ℕ → Byte) : (ℕ → Byte) × ℕ :=
  let q := Mem.put q c (domain ++ [0])
  let c := c + (domain.length + 1)
  (Mem.put (Mem.put q c [0, 12]) (c + 2) [0, 1], c + 4)

/-- `query_init_ip4 (q, ip)`, with the `ident` from the clock: the query and its length. -/
def queryInitIp4 (ident : Word) (q : ℕ → Byte) (ip : Dword) : (ℕ → Byte) × ℕ :=
  let r := octetLoop 4 headSize (ntohl ip) (Mem.put q 0 (queryHead ident))
  closeQuery inAddrArpa r.1 r.2

/-- `query_init_ip6 (q, addr)`. -/
def queryInitIp6 (ident : Word) (q : ℕ → Byte) (ip : ℕ → Byte) : (ℕ → Byte) × ℕ :=
  let r := nibbleLoop ip 16 headSize (Mem.put q 0 (queryHead ident))
  closeQuery ip6Arpa r.1 r.2

/-! ## The law -/

/-- An IPv4 address in network order, or the bytes of an IPv6 address. -/
inductive InetAddr
  | ip4 (ip : Dword)
  | ip6 (ip : ℕ → Byte)

/-- The function for the family. -/
def queryInit (ident : Word) (q : ℕ → Byte) : InetAddr → (ℕ → Byte) × ℕ
  | .ip4 ip => queryInitIp4 ident q ip
  | .ip6 ip => queryInitIp6 ident q ip

/-- A label of one hexadecimal digit. -/
def nibble (x : Byte) : List Byte := [hexCharsLower x.toNat]

/-- `d.c.b.a.in-addr.arpa` of the address `a.b.c.d`, and the nibbles under `ip6.arpa`, low nibble of the last
byte first. -/
def reverseName : InetAddr → List (List Byte)
  | .ip4 ip => [decimal (octet ip 3), decimal (octet ip 2), decimal (octet ip 1), decimal (octet ip 0),
      [105, 110, 45, 97, 100, 100, 114], [97, 114, 112, 97]]
  | .ip6 ip => (List.range 16).flatMap (fun i => [nibble (ip (15 - i) &&& 15), nibble (ip (15 - i) >>> 4)]) ++
      [[105, 112, 54], [97, 114, 112, 97]]

/-- The query is one question for the PTR records of a well-formed name in class IN, and `len` is its length. -/
structure AsksFor (name : List (List Byte)) (q : ℕ → Byte) (len : ℕ) : Prop where
  labels : ∀ l ∈ name, LabelOk l
  short : (wire name).length ≤ 255
  count : be16 q 4 = 1 ∧ be16 q 6 = 0 ∧ be16 q 8 = 0 ∧ be16 q 10 = 0
  question : Mem.slice q headSize (wire name).length = wire name
  type : be16 q (headSize + (wire name).length) = 12
  class_in : be16 q (headSize + (wire name).length + 2) = din
  length : len = headSize + (wire name).length + 4

variable {ident : Word} {q : ℕ → Byte} {ip : Dword} {n c i : ℕ} {x : Byte} {domain : List Byte}

/-! ## Octets -/

theorem length_decimal : (decimal x).length = numDigits x := by
  have h0 : 0 < (Nat.toDigits 10 x.toNat).length := Nat.length_toDigits_pos
  have h1 : (Nat.toDigits 10 x.toNat).length ≤ 1 ↔ x.toNat < 10 :=
    Nat.length_toDigits_le_iff (by decide) (by decide)
  have h2 : (Nat.toDigits 10 x.toNat).length ≤ 2 ↔ x.toNat < 100 :=
    Nat.length_toDigits_le_iff (by decide) (by decide)
  have h3 : (Nat.toDigits 10 x.toNat).length ≤ 3 ↔ x.toNat < 1000 :=
    Nat.length_toDigits_le_iff (by decide) (by decide)
  have hx := x.isLt
  have hten : (x < 10) = (x.toNat < 10) := propext BitVec.lt_def
  have hhundred : (x < 100) = (x.toNat < 100) := propext BitVec.lt_def
  simp only [decimal, List.length_map, numDigits, hten, hhundred]
  split_ifs <;> omega

theorem numDigits_bounds : 0 < numDigits x ∧ numDigits x ≤ 3 := by
  unfold numDigits
  split_ifs <;> decide

theorem labelOk_decimal : LabelOk (decimal x) := by
  refine ⟨by rw [length_decimal]; exact numDigits_bounds.1,
    by rw [length_decimal]; exact numDigits_bounds.2.trans (by decide), ?_⟩
  intro b hb
  obtain ⟨ch, hch, rfl⟩ := List.mem_map.mp hb
  have hdigit : 48 ≤ ch.toNat ∧ ch.toNat ≤ 57 :=
    Char.isDigit_iff_toNat.mp (Nat.isDigit_of_mem_toDigits (by decide) (by decide) hch)
  have htoNat : (BitVec.ofNat 8 ch.toNat).toNat = ch.toNat := by
    rw [BitVec.toNat_ofNat]
    omega
  refine ⟨fun h => ?_, fun h => ?_⟩
  · have h0 : ch.toNat = 0 := htoNat.symm.trans (congrArg BitVec.toNat h)
    omega
  · have hdot : ch.toNat = 46 := htoNat.symm.trans (congrArg BitVec.toNat h)
    omega

theorem octet_toNat (x : Dword) (i : ℕ) : (octet x i).toNat = x.toNat / 2 ^ (8 * i) % 256 := by
  rw [octet, BitVec.toNat_setWidth, BitVec.toNat_ushiftRight, Nat.shiftRight_eq_div_pow]

theorem toNat_ntohl : (ntohl ip).toNat = (((octet ip 0).toNat * 256 + (octet ip 1).toNat) * 256 +
    (octet ip 2).toNat) * 256 + (octet ip 3).toNat := by
  have happend {w : ℕ} (a : BitVec w) (b : Byte) : (a ++ b).toNat = a.toNat * 256 + b.toNat := by
    rw [BitVec.toNat_append, ← Nat.shiftLeft_add_eq_or_of_lt b.isLt, Nat.shiftLeft_eq]
  rw [ntohl, happend, happend, happend]

theorem octet_ntohl (h : i < 4) : octet (ntohl ip) i = octet ip (3 - i) := by
  have h0 := (octet ip 0).isLt
  have h1 := (octet ip 1).isLt
  have h2 := (octet ip 2).isLt
  have h3 := (octet ip 3).isLt
  apply BitVec.eq_of_toNat_eq
  rw [octet_toNat (ntohl ip), toNat_ntohl]
  have hi : i = 0 ∨ i = 1 ∨ i = 2 ∨ i = 3 := by omega
  rcases hi with rfl | rfl | rfl | rfl
  · show _ / 1 % 256 = (octet ip 3).toNat
    omega
  · show _ / 2 ^ 8 % 256 = (octet ip 2).toNat
    omega
  · show _ / 2 ^ 16 % 256 = (octet ip 1).toNat
    omega
  · show _ / 2 ^ 24 % 256 = (octet ip 0).toNat
    omega

theorem octet_shift : octet (ip >>> 8) i = octet ip (i + 1) := by
  apply BitVec.eq_of_toNat_eq
  rw [octet_toNat, octet_toNat, BitVec.toNat_ushiftRight, Nat.shiftRight_eq_div_pow, Nat.div_div_eq_div_mul,
    ← Nat.pow_add, Nat.mul_add, Nat.add_comm]

/-- The labels of the octets from the low end on. -/
def octetLabels (ip : Dword) (n : ℕ) : List (List Byte) := (List.range n).map fun i => decimal (octet ip i)

theorem octetLabels_succ : octetLabels ip (n + 1) = decimal (octet ip 0) :: octetLabels (ip >>> 8) n := by
  simp [octetLabels, List.range_succ_eq_map, octet_shift, Function.comp_def]

theorem octetLoop_of_lt (h : i < c) : (octetLoop n c ip q).2 i = q i := by
  induction n generalizing c ip q with
  | zero => rfl
  | succ n ih => rw [octetLoop, ih (by omega), Mem.put_of_lt (by omega), Mem.put_of_lt h]

/-- One octet: its length and its digits. -/
theorem slice_octet : Mem.slice (octetLoop (n + 1) c ip q).2 c (numDigits (octet ip 0) + 1) =
    BitVec.ofNat 8 (decimal (octet ip 0)).length :: decimal (octet ip 0) := by
  have hlen := @length_decimal (octet ip 0)
  have hfirst : Mem.slice (octetLoop (n + 1) c ip q).2 c 1 = [BitVec.ofNat 8 (decimal (octet ip 0)).length] := by
    have hput : Mem.put q c [BitVec.ofNat 8 (numDigits (octet ip 0))] (c + 0) = BitVec.ofNat 8 (numDigits (octet ip 0)) :=
      Mem.put_of_mem (by simp)
    rw [octetLoop, hlen]
    refine List.singleton_inj.mpr ?_
    dsimp only
    rw [octetLoop_of_lt (by omega), Mem.put_of_lt (by omega)]
    exact hput
  have hrest : Mem.slice (octetLoop (n + 1) c ip q).2 (c + 1) (numDigits (octet ip 0)) = decimal (octet ip 0) := by
    refine List.ext_getElem? fun i => ?_
    rw [octetLoop, Mem.getElem?_slice]
    split_ifs with hi
    · have hi' : i < (decimal (octet ip 0)).length := by omega
      rw [octetLoop_of_lt (by omega), Mem.put_of_mem (by rw [List.length_append]; omega),
        List.getElem_append_left hi', List.getElem?_eq_getElem hi']
    · rw [List.getElem?_eq_none (by omega)]
  rw [Nat.add_comm (numDigits (octet ip 0)) 1, Mem.slice_add, hfirst, hrest, List.singleton_append]

/-- **The loop over the octets** writes their labels. -/
theorem octetLoop_labels : (octetLoop n c ip q).1 = c + (wireLabels (octetLabels ip n)).length ∧
    Mem.slice (octetLoop n c ip q).2 c (wireLabels (octetLabels ip n)).length = wireLabels (octetLabels ip n) := by
  induction n generalizing c ip q with
  | zero => exact ⟨rfl, rfl⟩
  | succ n ih =>
    have hlen : (wireLabels (octetLabels ip (n + 1))).length =
        numDigits (octet ip 0) + 1 + (wireLabels (octetLabels (ip >>> 8) n)).length := by
      rw [octetLabels_succ, wireLabels_cons, List.length_append, List.length_cons, length_decimal]
    rw [hlen, Mem.slice_add, slice_octet, octetLabels_succ, wireLabels_cons, ← Nat.add_assoc]
    exact ⟨ih.1, congrArg (_ ++ ·) ih.2⟩

/-! ## The end of a query -/

theorem closeQuery_of_lt (h : i < c) : (closeQuery domain c q).1 i = q i := by
  rw [closeQuery]
  dsimp only
  rw [Mem.put_of_lt (by omega), Mem.put_of_lt (by omega), Mem.put_of_lt h]

theorem slice_closeQuery : Mem.slice (closeQuery domain c q).1 c (domain.length + 1) = domain ++ [0] := by
  have hlen : (domain ++ [0]).length = domain.length + 1 := List.length_append
  rw [closeQuery]
  dsimp only
  rw [Mem.slice_put_disjoint (by omega), Mem.slice_put_disjoint (by omega), ← hlen, Mem.slice_put]

theorem be16_congr {m m' : ℕ → Byte} {p : ℕ} (h : m p = m' p) (h' : m (p + 1) = m' (p + 1)) : be16 m p = be16 m' p := by
  rw [be16, be16, h, h']

theorem be16_put (hi lo : Byte) (c : ℕ) (q : ℕ → Byte) : be16 (Mem.put q c [hi, lo]) c = hi ++ lo := by
  have h0 : Mem.put q c [hi, lo] (c + 0) = hi := Mem.put_of_mem (by simp)
  have h1 : Mem.put q c [hi, lo] (c + 1) = lo := Mem.put_of_mem (by simp)
  exact congrArg₂ (· ++ ·) h0 h1

theorem be16_closeQuery : be16 (closeQuery domain c q).1 (c + (domain.length + 1)) = (0 : Byte) ++ (12 : Byte) ∧
    be16 (closeQuery domain c q).1 (c + (domain.length + 1) + 2) = (0 : Byte) ++ (1 : Byte) := by
  rw [closeQuery]
  dsimp only
  generalize c + (domain.length + 1) = d
  have hkeep : be16 (Mem.put (Mem.put (Mem.put q c (domain ++ [0])) d [0, 12]) (d + 2) [0, 1]) d =
      be16 (Mem.put (Mem.put q c (domain ++ [0])) d [0, 12]) d :=
    be16_congr (Mem.put_of_lt (by omega)) (Mem.put_of_lt (by omega))
  exact ⟨hkeep.trans (be16_put 0 12 _ _), be16_put 0 1 _ _⟩

theorem wire_append (ls ls' : List (List Byte)) : wire (ls ++ ls') = wireLabels ls ++ wire ls' := by
  simp [wire, wireLabels]

/-! ## Both families -/

theorem octetLabels_four : octetLabels (ntohl ip) 4 =
    [decimal (octet ip 3), decimal (octet ip 2), decimal (octet ip 1), decimal (octet ip 0)] := by
  simp [octetLabels, List.range_succ, octet_ntohl]

/-- One question, and nothing else. -/
theorem be16_queryHead : be16 (Mem.put q 0 (queryHead ident)) 4 = 1 ∧ be16 (Mem.put q 0 (queryHead ident)) 6 = 0 ∧
    be16 (Mem.put q 0 (queryHead ident)) 8 = 0 ∧ be16 (Mem.put q 0 (queryHead ident)) 10 = 0 := by
  simp [be16, Mem.put, queryHead]

theorem asksFor_ip4 : AsksFor (reverseName (.ip4 ip)) (queryInitIp4 ident q ip).1 (queryInitIp4 ident q ip).2 := by
  obtain ⟨hc, hlabels⟩ := @octetLoop_labels (Mem.put q 0 (queryHead ident)) (ntohl ip) 4 headSize
  have hname : reverseName (.ip4 ip) = octetLabels (ntohl ip) 4 ++ [[105, 110, 45, 97, 100, 100, 114], [97, 114, 112, 97]] := by
    rw [octetLabels_four]
    rfl
  have hdomain : wire [[105, 110, 45, 97, 100, 100, 114], [97, 114, 112, 97]] = inAddrArpa ++ [0] := rfl
  have hwire : wire (reverseName (.ip4 ip)) = wireLabels (octetLabels (ntohl ip) 4) ++ (inAddrArpa ++ [0]) := by
    rw [hname, wire_append, hdomain]
  have hlen : (wire (reverseName (.ip4 ip))).length = (wireLabels (octetLabels (ntohl ip) 4)).length + (inAddrArpa.length + 1) := by
    rw [hwire, List.length_append, List.length_append]
    rfl
  have hhead : ∀ i < headSize, (queryInitIp4 ident q ip).1 i = Mem.put q 0 (queryHead ident) i := fun i hi => by
    rw [queryInitIp4, closeQuery_of_lt (by omega), octetLoop_of_lt hi]
  have hcount := @be16_queryHead ident q
  refine ⟨?_, ?_, ⟨?_, ?_, ?_, ?_⟩, ?_, ?_, ?_, ?_⟩
  · intro l hl
    simp only [reverseName, List.mem_cons, List.not_mem_nil, or_false] at hl
    rcases hl with rfl | rfl | rfl | rfl | rfl | rfl
    · exact labelOk_decimal
    · exact labelOk_decimal
    · exact labelOk_decimal
    · exact labelOk_decimal
    · exact ⟨by decide, by decide, by decide⟩
    · exact ⟨by decide, by decide, by decide⟩
  · have h0 := (@numDigits_bounds (octet ip 0)).2
    have h1 := (@numDigits_bounds (octet ip 1)).2
    have h2 := (@numDigits_bounds (octet ip 2)).2
    have h3 := (@numDigits_bounds (octet ip 3)).2
    rw [hlen, octetLabels_four]
    simp only [wireLabels_cons, wireLabels_nil, List.length_append, List.length_cons, List.length_nil, length_decimal,
      inAddrArpa]
    omega
  · rw [be16_congr (hhead 4 (by decide)) (hhead 5 (by decide))]
    exact hcount.1
  · rw [be16_congr (hhead 6 (by decide)) (hhead 7 (by decide))]
    exact hcount.2.1
  · rw [be16_congr (hhead 8 (by decide)) (hhead 9 (by decide))]
    exact hcount.2.2.1
  · rw [be16_congr (hhead 10 (by decide)) (hhead 11 (by decide))]
    exact hcount.2.2.2
  · rw [hlen, Mem.slice_add, hwire, ← hc, queryInitIp4, slice_closeQuery]
    refine congrArg (· ++ _) (Eq.trans (Mem.slice_congr fun i hi => ?_) hlabels)
    exact closeQuery_of_lt (by omega)
  · rw [hlen, ← Nat.add_assoc, ← hc, queryInitIp4]
    exact be16_closeQuery.1
  · rw [hlen, ← Nat.add_assoc, ← hc, queryInitIp4]
    exact be16_closeQuery.2
  · rw [hlen, ← Nat.add_assoc, ← hc, queryInitIp4]
    rfl

theorem nibbleLoop_of_lt {ip : ℕ → Byte} (h : i < c) : (nibbleLoop ip n c q).2 i = q i := by
  induction n generalizing c q with
  | zero => rfl
  | succ n ih => rw [nibbleLoop, ih (by omega), Mem.put_of_lt h]

theorem nibbleLoop_fst {ip : ℕ → Byte} : (nibbleLoop ip n c q).1 = c + 3 * n := by
  induction n generalizing c q with
  | zero => rfl
  | succ n ih =>
    rw [nibbleLoop, ih]
    omega

/-- **A label of two digits** stands where one of a single digit should. -/
theorem not_asksFor_ip6 (ip : ℕ → Byte) :
    ¬AsksFor (reverseName (.ip6 ip)) (queryInitIp6 ident q ip).1 (queryInitIp6 ident q ip).2 := by
  intro h
  have hfirst : (queryInitIp6 ident q ip).1 headSize = 2 := by
    rw [queryInitIp6, closeQuery_of_lt (by rw [nibbleLoop_fst]; decide), nibbleLoop, nibbleLoop_of_lt (by decide)]
    exact Mem.put_of_mem (d := headSize) (i := 0) (by simp)
  have hname : (wire (reverseName (.ip6 ip))).head? = some 1 := rfl
  have hquestion := congrArg List.head? h.question
  rw [hname, List.head?_eq_getElem?, Mem.getElem?_slice, if_pos (by simp [wire]), Nat.add_zero, hfirst] at hquestion
  exact absurd hquestion (by decide)

/-- **Reverse questions**: each IPv4 address is asked for by its name, and no IPv6 address. -/
theorem reverse_query_iff (ident : Word) (q : ℕ → Byte) (addr : InetAddr) :
    AsksFor (reverseName addr) (queryInit ident q addr).1 (queryInit ident q addr).2 ↔ ∃ ip, addr = .ip4 ip := by
  cases addr with
  | ip4 ip => exact iff_of_true asksFor_ip4 ⟨ip, rfl⟩
  | ip6 ip => exact iff_of_false (not_asksFor_ip6 ip) fun ⟨_, h⟩ => by cases h

/-- The address `::1`. -/
theorem loopback_not_asked : ¬AsksFor (reverseName (.ip6 (Mem.put (fun _ => 0) 15 [1])))
    (queryInit 0 (fun _ => 0) (.ip6 (Mem.put (fun _ => 0) 15 [1]))).1
    (queryInit 0 (fun _ => 0) (.ip6 (Mem.put (fun _ => 0) 15 [1]))).2 := not_asksFor_ip6 _

end Watt32.Dns
