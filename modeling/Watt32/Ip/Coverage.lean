import Watt32.Ip.Bounds

/-!
# What a reassembled datagram is made of

When `ip4_defragment` returns 1: whether the last fragment has come, and whether every byte was in some fragment.

* `Piece`, `Traced`: the fragments that went to each bucket since it was taken.
* `CompleteLaw`: a datagram is complete when it is returned.
* `Covers`: what the list of holes has to do with the fragments that came.
* `CompleteRule`: the packets that keep it so: they fit, a fragment with more to follow does not begin within a hole
  that goes on behind it, and the last one has no longer header than the one in the buffer, and no data behind that
  of an earlier last one.
* **`reassembly_complete`**: a run of such packets returns complete datagrams only.
-/

namespace Watt32.Frag

/-! ## What has come -/

/-- A fragment that was looked at. -/
structure Piece where
  key : FragKey
  offset : ℕ
  size : ℕ
  more : Bool

/-- The byte behind its data. -/
def Piece.fin (p : Piece) : ℕ := p.offset + p.size

def pieceOf (ip : Packet) : Piece := ⟨fragKey ip, fragOfs ip, (dataLength ip).toNat, moreFrags ip⟩

instance {cfg : Config} {ip : Packet} : Decidable (Looked cfg ip) := inferInstanceAs (Decidable (_ ∧ _ ∧ _))

/-- The bucket that a packet goes to. -/
def receiver (cfg : Config) (s : State) (pad : Byte) (ip : Packet) : Option Bucket :=
  let m := matchFrag cfg s pad ip
  if Looked cfg ip ∧ (m.found = true ∨ m.slot = none) then m.bucket <|> m.freeBucket else none

/-- A state with what has come into each bucket, and the fragments that went to each bucket since it was taken. -/
structure Traced where
  tracked : Tracked := {}
  fragments : Bucket → List Packet := fun _ => []

def Traced.state (z : Traced) : State := z.tracked.state

/-- The fragments when a packet arrives: there are none before the bucket is taken. -/
def Traced.since (z : Traced) (b : Bucket) : List Packet := if (z.state.bucket b).used then z.fragments b else []

/-- The fragments behind a packet. -/
def Traced.receive (cfg : Config) (z : Traced) (pad : Byte) (ip : Packet) : Bucket → List Packet :=
  match receiver cfg z.state pad ip with
  | none => z.fragments
  | some b => Function.update z.fragments b (z.since b ++ [ip])

/-- An event, with the fragments. -/
def trace (cfg : Config) (x : Option Traced) (ev : Event) : Option Traced :=
  x.bind fun z => (track cfg (some z.tracked) ev).map fun y =>
    { tracked := y
      fragments :=
        match ev with
        | .packet _ pad ip => z.receive cfg pad ip
        | .timeouts _ => z.fragments }

/-- The last fragment has come, and every byte of the data, by the length in the header, was in some fragment. -/
structure Complete (F : List Piece) (fb : FragBucket) : Prop where
  last : ∃ p ∈ F, p.key = fb.key ∧ p.more = false
  bytes : ∀ x < length fb.mem - hdrLen fb.mem, ∃ p ∈ F, p.key = fb.key ∧ p.offset ≤ x ∧ x < p.fin

/-- The law of the claim for an event. -/
def CompleteLaw (cfg : Config) (x : Option Traced) (ev : Event) : Prop :=
  ∀ z ∈ x,
    match ev with
    | .packet now pad ip => ∀ c b, handlerCall cfg now pad z.state ip = some c → c.result = .reassembled b →
        Complete ((z.receive cfg pad ip b).map pieceOf) (c.state.bucket b)
    | .timeouts _ => True

/-! ## What fits -/

/-- The fragment does not hide a byte that is missing: one with more to follow does not begin within a hole that
goes on behind it, and the last one tells no more than what it ends. -/
structure PieceFits (cfg : Config) (z : Traced) (b : Bucket) (ip : Packet) : Prop where
  more : moreFrags ip = true → (z.state.bucket b).used = true → fragOfs ip + (dataLength ip).toNat < cfg.maxFragSize ∧
    NotWithin (fragOfs ip) (fragOfs ip + (dataLength ip).toNat) (z.state.marks cfg b 0)
  last : moreFrags ip = false → hdrLen ip ≤ hdrLen (z.state.bucket b).mem ∧
    ∀ p ∈ (z.since b).map pieceOf, p.more = false → fragOfs ip + (dataLength ip).toNat ≤ p.fin

/-- The rule for an event. -/
def CompleteRule (cfg : Config) (x : Option Traced) (ev : Event) : Prop :=
  ∀ z ∈ x,
    match ev with
    | .packet _ pad ip => Fits cfg z.tracked pad ip ∧ ∀ b, receiver cfg z.state pad ip = some b → PieceFits cfg z b ip
    | .timeouts _ => True

/-! ## The invariant -/

/-- What the holes `ks` of a bucket have to do with the fragments `F` that came. -/
structure Covers (cfg : Config) (fb : FragBucket) (D : ℕ) (F : List Piece) (ks : List Mark) : Prop where
  key : ∀ p ∈ F, p.key = fb.key
  place : sizeofHeader ≤ D
  granular : Granular cfg.maxFragSize ks
  missing : ∀ x : ℕ, x < cfg.maxFragSize → (∀ p ∈ F, p.more = false → x < p.fin) →
    (∃ p ∈ F, p.offset ≤ x ∧ x < p.fin) ∨ ∃ k ∈ ks, k.Misses x
  endless : (∀ p ∈ F, p.more = true) → ∃ k ∈ ks, k.fin = cfg.maxFragSize
  total : ∀ p ∈ F, p.more = false → length fb.mem ≤ hdrLen fb.mem + p.fin ∧ p.fin ≤ cfg.maxFragSize

/-- The invariant. -/
structure Accounted (cfg : Config) (z : Traced) : Prop where
  sound : Sound cfg z.tracked
  covers : ∀ b, (z.state.bucket b).used = true →
    Covers cfg (z.state.bucket b) (z.state.ctrl b 0).dataOffset ((z.fragments b).map pieceOf) (z.state.marks cfg b 0)

variable {cfg : Config} {z : Traced} {y : Tracked} {s t : State} {now : Dword} {pad : Byte} {ip : Packet}
  {offset n a D N : ℕ} {mf : Bool} {b : Bucket} {m : ℕ → Byte} {l : List ℕ} {ks : List Mark} {got : Got}
  {F : List Piece} {fb : FragBucket} {q : Piece} {c : Call}

theorem Accounted.init : Accounted cfg {} where
  sound := Sound.init
  covers _ h := absurd h Bool.false_ne_true

/-! ## Lengths -/

theorem fragOfs_mod : fragOfs ip % 8 = 0 := Nat.mul_mod_left _ 8

/-- A fragment that is looked at ends inside the buffer, with a granule if more follow. -/
theorem fin_of_looked (h : Looked cfg ip) (hn : hdrLen ip ≤ length ip) :
    fragOfs ip + (dataLength ip).toNat ≤ cfg.maxFragSize ∧
      (moreFrags ip = true → (fragOfs ip + (dataLength ip).toNat) % 8 = 0) := by
  obtain ⟨-, -, -, hmf, hofs⟩ := h
  have hdl : dataLength ip = ((length ip - hdrLen ip : ℕ) : ℤ) := by
    unfold dataLength
    omega
  have hlen : length ip < 2 ^ 16 := (be16 ip 2).isLt
  have hofs' : fragOfs ip ≤ 2 ^ 31 := fragOfs_le
  have hmod : fragOfs ip % 8 = 0 := fragOfs_mod
  unfold checkFragOfs at hofs
  have hsum := (of_decide_eq_true hofs).1
  unfold dataEnd at hsum
  refine ⟨?_, fun hm => ?_⟩
  · rw [hdl] at hsum ⊢
    rcases Nat.lt_or_ge (2 * fragOfs ip + (length ip - hdrLen ip)) (2 ^ 32) with hlt | hge
    · omega
    · have hfrag : fragOfs ip < 2 ^ 16 := by
        have := (be16 ip 6 &&& 0x1fff).isLt
        have hmask : (be16 ip 6 &&& 0x1fff).toNat ≤ 0x1fff := by
          rw [BitVec.toNat_and]
          exact Nat.and_le_right
        unfold fragOfs
        omega
      omega
  · have hzero : dataLength ip % 8 = 0 := by
      by_contra hne
      exact hmf ⟨hm, hne⟩
    omega

/-- The length is that before, or what the last fragment tells. -/
theorem length_putLength (x : ℤ) : length (putLength m x) = (x % 2 ^ 16).toNat := by
  have hbe : be16 (putLength m x) 2 = BitVec.ofInt 16 x := by
    have h0 : putLength m x (2 + 0) = (BitVec.ofInt 16 x).extractLsb' 8 8 := Mem.put_of_mem (by simp [bytes16])
    have h1 : putLength m x (2 + 1) = (BitVec.ofInt 16 x).extractLsb' 0 8 := Mem.put_of_mem (by simp [bytes16])
    unfold be16
    rw [h0, h1]
    exact (BitVec.extractLsb'_append_extractLsb'_eq_extractLsb' rfl).trans BitVec.extractLsb'_eq_self
  unfold length
  rw [hbe, BitVec.toNat_ofInt]
  rfl

theorem hdrLen_putLength (x : ℤ) : hdrLen (putLength m x) = hdrLen m := by
  unfold hdrLen putLength
  rw [Mem.put_of_lt (by decide)]

theorem length_congr {m' : ℕ → Byte} (h₂ : m' 2 = m 2) (h₃ : m' 3 = m 3) : length m' = length m := by
  unfold length be16
  rw [h₂, h₃]

theorem hdrLen_congr {m' : ℕ → Byte} (h : m' 0 = m 0) : hdrLen m' = hdrLen m := by
  unfold hdrLen
  rw [h]

theorem finishHeader_of_lt {i : ℕ} (h : i < 6) : finishHeader m i = m i := by
  unfold finishHeader
  rw [Mem.put_of_lt (by omega), Mem.put_of_lt (by omega), Mem.put_of_lt (by omega)]

/-! ## A further fragment -/

/-- A byte that is missing is in the next fragment, which then meets a hole, or missing still. -/
theorem misses_of_piece {x : ℕ} (hg : Granular cfg.maxFragSize ks) (hq : q.offset % 8 = 0)
    (hmore : q.more = true → q.fin % 8 = 0 ∧ q.fin < cfg.maxFragSize ∧ NotWithin q.offset (q.offset + q.size) ks)
    (hx : x < cfg.maxFragSize) (hlast : q.more = false → x < q.fin) (hmiss : ∃ k ∈ ks, k.Misses x) :
    ((∃ k ∈ ks, k.Touches q.offset (q.offset + q.size)) ∧ q.offset ≤ x ∧ x < q.fin) ∨
      ∃ k ∈ leftOver N q.offset (q.offset + q.size) false ks, k.Misses x := by
  have hfin : (q.fin : ℤ) = q.offset + q.size := by simp [Piece.fin]
  have hbehind : (q.offset : ℤ) + q.size ≤ x →
      ((q.offset : ℤ) + q.size) % 8 = 0 ∧ NotWithin q.offset (q.offset + q.size) ks := by
    intro hle
    cases hqm : q.more with
    | false =>
      have := hlast hqm
      omega
    | true =>
      obtain ⟨hmod, -, hwithin⟩ := hmore hqm
      exact ⟨by omega, hwithin⟩
  rcases misses_leftOver (by omega) hg (by exact_mod_cast hx) hbehind hmiss with ⟨ht, hlo, hhi⟩ | hleft
  · exact .inl ⟨ht, by omega, by omega⟩
  · exact .inr hleft

/-- The holes behind a further fragment. -/
theorem Covers.holes (h : Covers cfg fb D F ks) (hq : q.offset % 8 = 0)
    (hmore : q.more = true → q.fin % 8 = 0 ∧ q.fin < cfg.maxFragSize ∧ NotWithin q.offset (q.offset + q.size) ks) :
    Granular cfg.maxFragSize (leftOver N q.offset (q.offset + q.size) false ks) ∧
    (∀ x : ℕ, x < cfg.maxFragSize → (∀ p ∈ F ++ [q], p.more = false → x < p.fin) →
      (∃ p ∈ F ++ [q], p.offset ≤ x ∧ x < p.fin) ∨ ∃ k ∈ leftOver N q.offset (q.offset + q.size) false ks, k.Misses x) ∧
    ((∀ p ∈ F ++ [q], p.more = true) → ∃ k ∈ leftOver N q.offset (q.offset + q.size) false ks, k.fin = cfg.maxFragSize) := by
  have hstart : (q.offset : ℤ) % 8 = 0 := by omega
  have hfin : (q.fin : ℤ) = q.offset + q.size := by simp [Piece.fin]
  refine ⟨h.granular.leftOver hstart, fun x hx hlast => ?_, fun hall => ?_⟩
  · rcases h.missing x hx fun p hp => hlast p (List.mem_append_left _ hp) with ⟨p, hp, hcov⟩ | hmiss
    · exact .inl ⟨p, List.mem_append_left _ hp, hcov⟩
    have hself : q ∈ F ++ [q] := List.mem_append_right _ (List.mem_singleton_self q)
    rcases misses_of_piece h.granular hq hmore hx (hlast q hself) hmiss with ⟨-, hcov⟩ | hleft
    · exact .inl ⟨q, hself, hcov⟩
    · exact .inr hleft
  · obtain ⟨-, hlt, hwithin⟩ := hmore (hall q (List.mem_append_right _ (List.mem_singleton_self q)))
    refine exists_open_leftOver (by rw [← hfin]; exact_mod_cast hlt) hwithin (h.endless fun p hp => ?_)
    exact hall p (List.mem_append_left _ hp)

/-- The header behind a further fragment: of its first bytes only the length changes, by the last fragment. -/
theorem Added.head (h : Added cfg s b 0 ip offset mf got D ks c) (hD : sizeofHeader ≤ D) :
    ∃ l m, HoleList cfg b (got ++ payloads b c.writes) m (c.state.ctrl b 0).holeFirst l ∧
      l.map (mark m) = leftOver (D + offset + (dataLength ip).toNat + 1) offset
        (offset + (dataLength ip).toNat) false ks ∧
      (∀ i < 6, m i = lengthened (s.bucket b).mem ip offset mf i) ∧
      (l ≠ [] ∧ c.result = .taken ∧ (c.state.bucket b).mem = m ∨
        l = [] ∧ c.result = .reassembled b ∧ (c.state.bucket b).mem = finishHeader m) := by
  obtain ⟨l, m, hlist, hmarks, hbytes, hcase⟩ := h.left
  refine ⟨l, m, hlist, hmarks, fun i hi => ?_, hcase⟩
  unfold sizeofHeader at hD
  rw [hbytes i (.inr fun a ha => .inl ?_), if_neg fun hin => by omega]
  have := (ha.1.resolve_left (by decide)).1
  unfold sizeofHeader at this
  omega

/-- What the header tells of the data, behind a further fragment. -/
theorem Covers.total_add (h : Covers cfg fb D F ks) (hl : Looked cfg ip) (hn : hdrLen ip ≤ length ip)
    (hlast : moreFrags ip = false → hdrLen ip ≤ hdrLen fb.mem ∧
      ∀ p ∈ F, p.more = false → fragOfs ip + (dataLength ip).toNat ≤ p.fin)
    (hm : ∀ i < 6, m i = lengthened fb.mem ip (fragOfs ip) (moreFrags ip) i) :
    ∀ p ∈ F ++ [pieceOf ip], p.more = false → length m ≤ hdrLen m + p.fin ∧ p.fin ≤ cfg.maxFragSize := by
  have hlen : length m = length (lengthened fb.mem ip (fragOfs ip) (moreFrags ip)) :=
    length_congr (hm 2 (by decide)) (hm 3 (by decide))
  have hhdr : hdrLen m = hdrLen (lengthened fb.mem ip (fragOfs ip) (moreFrags ip)) := hdrLen_congr (hm 0 (by decide))
  have hinside := (fin_of_looked hl hn).1
  rw [hlen, hhdr]
  unfold lengthened
  cases hmf : moreFrags ip with
  | true =>
    rw [if_pos rfl]
    intro p hp hmore
    rcases List.mem_append.mp hp with hp | hp
    · exact h.total p hp hmore
    · rw [List.mem_singleton.mp hp] at hmore
      exact absurd (hmore.symm.trans hmf) (by decide)
  | false =>
    obtain ⟨hshort, hends⟩ := hlast hmf
    have hdl : dataLength ip = ((dataLength ip).toNat : ℤ) := by
      have : 0 ≤ dataLength ip := by
        unfold dataLength
        omega
      omega
    rw [if_neg Bool.false_ne_true, hdrLen_putLength, length_putLength]
    unfold dataEnd
    intro p hp hmore
    rcases List.mem_append.mp hp with hp | hp
    · have := hends p hp hmore
      exact ⟨by omega, (h.total p hp hmore).2⟩
    · rw [List.mem_singleton.mp hp]
      unfold pieceOf Piece.fin
      dsimp only
      exact ⟨by omega, hinside⟩

/-- **A further fragment**: what is missing is accounted for, and a datagram that is returned is complete. -/
theorem Covers.add (h : Covers cfg (s.bucket b) D F ks) (hl : Looked cfg ip) (hn : hdrLen ip ≤ length ip)
    (hadd : Added cfg s b 0 ip (fragOfs ip) (moreFrags ip) got D ks c) (hmine : fragKey ip = (s.bucket b).key)
    (hkey : (c.state.bucket b).key = (s.bucket b).key)
    (hmore : moreFrags ip = true → fragOfs ip + (dataLength ip).toNat < cfg.maxFragSize ∧
      NotWithin (fragOfs ip) (fragOfs ip + (dataLength ip).toNat) ks)
    (hlast : moreFrags ip = false → hdrLen ip ≤ hdrLen (s.bucket b).mem ∧
      ∀ p ∈ F, p.more = false → fragOfs ip + (dataLength ip).toNat ≤ p.fin) :
    (c.result = .reassembled b → Complete (F ++ [pieceOf ip]) (c.state.bucket b)) ∧
    (c.result = .taken → Covers cfg (c.state.bucket b) D (F ++ [pieceOf ip])
      (leftOver (D + fragOfs ip + (dataLength ip).toNat + 1) (fragOfs ip) (fragOfs ip + (dataLength ip).toNat) false ks)) := by
  obtain ⟨l, m, -, hmarks, hbytes, hcase⟩ := hadd.head h.place
  have htotal := h.total_add hl hn hlast hbytes
  have hkeys : ∀ p ∈ F ++ [pieceOf ip], p.key = (c.state.bucket b).key := by
    intro p hp
    rw [hkey]
    rcases List.mem_append.mp hp with hp | hp
    · exact h.key p hp
    · rw [List.mem_singleton.mp hp]
      exact hmine
  have hholes := h.holes (q := pieceOf ip) (N := D + fragOfs ip + (dataLength ip).toNat + 1) fragOfs_mod fun hm =>
    ⟨(fin_of_looked hl hn).2 hm, hmore hm⟩
  obtain ⟨hgranular, hmissing, hendless⟩ := hholes
  rcases hcase with ⟨-, hr, hmem⟩ | ⟨rfl, hr, hmem⟩
  · refine ⟨fun hr' => absurd (hr.symm.trans hr') nofun, fun _ => ⟨hkeys, h.place, hgranular, hmissing, hendless, ?_⟩⟩
    rw [hmem]
    exact htotal
  · refine ⟨fun _ => ?_, fun hr' => absurd (hr.symm.trans hr') nofun⟩
    -- no hole is left
    have hnil : leftOver (D + fragOfs ip + (dataLength ip).toNat + 1) (fragOfs ip)
        (fragOfs ip + (dataLength ip).toNat) false ks = [] := hmarks.symm
    have hsome : ∃ p ∈ F ++ [pieceOf ip], p.more = false := by
      by_contra hnone
      obtain ⟨k, hk, -⟩ := hendless fun p hp => by
        cases hpm : p.more with
        | true => rfl
        | false => exact absurd ⟨p, hp, hpm⟩ hnone
      have hk : k ∈ leftOver (D + fragOfs ip + (dataLength ip).toNat + 1) (fragOfs ip)
        (fragOfs ip + (dataLength ip).toNat) false ks := hk
      rw [hnil] at hk
      exact absurd hk List.not_mem_nil
    obtain ⟨p, hp, hpm⟩ := hsome
    have hlen : length (c.state.bucket b).mem = length m := by
      rw [hmem]
      exact length_congr (finishHeader_of_lt (by decide)) (finishHeader_of_lt (by decide))
    have hhdr : hdrLen (c.state.bucket b).mem = hdrLen m := by
      rw [hmem]
      exact hdrLen_congr (finishHeader_of_lt (by decide))
    refine ⟨⟨p, hp, hkeys p hp, hpm⟩, fun x hx => ?_⟩
    rw [hlen, hhdr] at hx
    have hbelow : ∀ e ∈ F ++ [pieceOf ip], e.more = false → x < e.fin := fun e he hem => by
      have := (htotal e he hem).1
      omega
    have hmax : x < cfg.maxFragSize := by
      have := (htotal p hp hpm).2
      have := hbelow p hp hpm
      omega
    rcases hmissing x hmax hbelow with ⟨e, he, hcov⟩ | ⟨k, hk, -⟩
    · exact ⟨e, he, hkeys e he, hcov⟩
    · have hk : k ∈ leftOver (D + fragOfs ip + (dataLength ip).toNat + 1) (fragOfs ip)
        (fragOfs ip + (dataLength ip).toNat) false ks := hk
      rw [hnil] at hk
      exact absurd hk List.not_mem_nil

/-! ## The first fragment -/

theorem records_zero (k : ℕ) : records cfg b m k 0 = [] := by
  cases k with
  | zero => rfl
  | succ k => exact if_pos rfl

theorem records_ptr (h : InData cfg a sizeofHole) (k : ℕ) :
    records cfg b m (k + 1) (ptr (cfg.hip b) a) = a :: records cfg b m k (readHole m a).next := by
  rw [records, if_neg (ptr_ne_zero h), deref_ptr h]

theorem maxFragSize_lt : cfg.maxFragSize < 2 ^ 31 := cfg.size_lt

/-- The holes behind the first byte of a datagram. -/
theorem records_setupOfs0 (h : InData cfg (min (length ip) cfg.mtu + 1) sizeofHole) (hn : hdrLen ip ≤ length ip) (k : ℕ) :
    (records cfg b (setupOfs0 cfg b m ip).mem (k + 1) (ptr (cfg.hip b) (setupOfs0 cfg b m ip).hole)).map
        (mark (setupOfs0 cfg b m ip).mem) =
      [⟨min (length ip) cfg.mtu + 1, (dataLength ip).toNat, cfg.maxFragSize⟩] := by
  have hlen : length ip < 2 ^ 16 := (be16 ip 2).isLt
  have hmax : cfg.maxFragSize < 2 ^ 31 := maxFragSize_lt
  have hdl : (BitVec.ofInt 32 (dataLength ip)).toInt = (dataLength ip).toNat := by
    unfold dataLength
    rw [toInt_ofInt_of_lt (k := 2 ^ 16) (by omega) (by omega) (by decide)]
    omega
  have hfin : (BitVec.ofInt 32 (cfg.maxFragSize : ℤ)).toInt = cfg.maxFragSize :=
    toInt_ofInt_of_lt (by omega) le_rfl (by omega)
  unfold setupOfs0
  dsimp only
  rw [records_ptr h, readHole_putNext]
  dsimp only
  rw [records_zero, List.map_singleton, mark_putNext, mark, readHole_putEnd, readHole_putStart]
  dsimp only
  rw [hdl, hfin]

/-- The holes beside data from within a datagram. -/
theorem records_setupLater (h : TakeFits cfg ip offset mf) (ho : offset ≠ 0) (hle : offset ≤ 2 ^ 31) (k : ℕ) :
    (records cfg b (setupLater cfg b m ip offset mf).mem (k + 2) (ptr (cfg.hip b) (setupLater cfg b m ip offset mf).hole)).map
        (mark (setupLater cfg b m ip offset mf).mem) =
      ⟨hdrLen ip, 0, offset - 1⟩ ::
        if mf then [⟨hdrLen ip + (dataLength ip).toNat + 1, (dataLength ip).toNat, cfg.maxFragSize⟩] else [] := by
  unfold TakeFits at h
  rw [if_neg ho] at h
  obtain ⟨-, hrec, -, hmf⟩ := h
  have hlen : length ip < 2 ^ 16 := (be16 ip 2).isLt
  have hmax : cfg.maxFragSize < 2 ^ 31 := maxFragSize_lt
  have hdl : (BitVec.ofInt 32 ((dataLength ip).toNat : ℤ)).toInt = (dataLength ip).toNat := by
    unfold dataLength
    exact toInt_ofInt_of_lt (k := 2 ^ 16) (by omega) (by omega) (by decide)
  have hfin : (BitVec.ofInt 32 (cfg.maxFragSize : ℤ)).toInt = cfg.maxFragSize :=
    toInt_ofInt_of_lt (by omega) le_rfl (by omega)
  have hbefore : (BitVec.ofInt 32 ((offset : ℤ) - 1)).toInt = offset - 1 :=
    toInt_ofInt_of_lt (by omega) le_rfl (by omega)
  have hzero : (BitVec.ofInt 32 0).toInt = 0 := by decide
  unfold setupLater
  cases mf with
  | false =>
    simp only [Bool.false_eq_true, if_false]
    rw [records_ptr hrec, readHole_putLength hrec, readHole_putNext]
    dsimp only
    rw [records_zero, List.map_singleton, mark, readHole_putLength hrec, readHole_putNext, readHole_putEnd, readHole_putStart]
    dsimp only
    rw [hbefore, hzero]
  | true =>
    obtain ⟨hrec', -, hsep⟩ := hmf rfl
    simp only [if_true]
    rw [records_ptr hrec, readHole_putNext_of_sep hsep.symm, readHole_putEnd_of_sep hsep.symm,
      readHole_putStart_of_sep hsep.symm, readHole_putNext]
    dsimp only
    rw [records_ptr hrec', readHole_putNext]
    dsimp only
    rw [records_zero, List.map_cons, List.map_singleton, mark_putNext, mark, mark, readHole_putNext_of_sep hsep.symm,
      readHole_putEnd_of_sep hsep.symm, readHole_putStart_of_sep hsep.symm, readHole_putNext, readHole_putEnd,
      readHole_putStart, readHole_putEnd, readHole_putStart]
    dsimp only
    rw [hbefore, hzero, hdl, hfin]

/-- What `setup_first_frag` makes of the buffer of `b`. -/
def firstSetup (cfg : Config) (s : State) (b : Bucket) (ip : Packet) (offset : ℕ) (mf : Bool) : Setup :=
  if offset = 0 then setupOfs0 cfg b (s.bucket b).mem ip else setupLater cfg b (s.bucket b).mem ip offset mf

/-- A bucket that a fragment has taken; the other one stays. -/
structure Taken (cfg : Config) (s : State) (b : Bucket) (ip : Packet) (offset : ℕ) (mf : Bool) (c : Call) : Prop where
  result : c.result = .taken
  key : (c.state.bucket b).key = fragKey ip
  mem : (c.state.bucket b).mem = (firstSetup cfg s b ip offset mf).mem
  first : (c.state.ctrl b 0).holeFirst = ptr (cfg.hip b) (firstSetup cfg s b ip offset mf).hole
  place : (c.state.ctrl b 0).dataOffset = hdrLen ip
  writes : c.writes = (firstSetup cfg s b ip offset mf).writes
  other : ∀ d, d ≠ b → c.state.bucket d = s.bucket d ∧ c.state.ctrl d = s.ctrl d

theorem setupFirstFrag_taken (hv : Vacant cfg (book s b)) (hn : hdrLen ip ≤ length ip)
    (hc : setupFirstFrag cfg now s b ip offset mf = some c) : Taken cfg s b ip offset mf c := by
  have hdl : ¬ (offset ≠ 0 ∧ dataLength ip < 0) := by
    unfold dataLength
    omega
  rw [setupFirstFrag, emptySlot_vacant hv] at hc
  simp only [if_neg hdl] at hc
  obtain rfl := Option.some.inj hc
  constructor
  · rfl
  · simp [State.setCtrl, State.setBucket]
  · simp [State.setCtrl, State.setBucket, firstSetup]
  · simp [State.setCtrl, firstSetup]
  · simp [State.setCtrl]
  · rfl
  · intro d hd
    simp [State.setCtrl, State.setBucket, hd]

theorem Taken.marks (h : Taken cfg s b ip offset mf c) : c.state.marks cfg b 0 =
    (records cfg b (firstSetup cfg s b ip offset mf).mem cfg.fuel
      (ptr (cfg.hip b) (firstSetup cfg s b ip offset mf).hole)).map (mark (firstSetup cfg s b ip offset mf).mem) := by
  rw [State.marks, h.mem, h.first]

/-- The holes of one fragment. -/
theorem Covers.single (hkey : q.key = fb.key) (hD : sizeofHeader ≤ D) (hg : Granular cfg.maxFragSize ks)
    (hmiss : ∀ x : ℕ, x < cfg.maxFragSize → ¬ (q.offset ≤ x ∧ x < q.fin) → (q.more = false → x < q.fin) →
      ∃ k ∈ ks, k.Misses x)
    (hopen : q.more = true → ∃ k ∈ ks, k.fin = cfg.maxFragSize)
    (htotal : q.more = false → length fb.mem ≤ hdrLen fb.mem + q.fin ∧ q.fin ≤ cfg.maxFragSize) :
    Covers cfg fb D [q] ks := by
  have hself : q ∈ [q] := List.mem_singleton_self q
  refine ⟨fun p hp => ?_, hD, hg, fun x hx hbelow => ?_, fun hall => hopen (hall q hself), fun p hp => ?_⟩
  · rw [List.mem_singleton.mp hp]
    exact hkey
  · by_cases hin : q.offset ≤ x ∧ x < q.fin
    · exact .inl ⟨q, hself, hin⟩
    · exact .inr (hmiss x hx hin (hbelow q hself))
  · rw [List.mem_singleton.mp hp]
    exact htotal

/-- The fragment with offset 0, which more follow. -/
theorem Taken.covers_ofs0 (h : Taken cfg s b ip 0 true c) (hh : sizeofHeader ≤ hdrLen ip) (hn : hdrLen ip ≤ length ip)
    (hfit : TakeFits cfg ip 0 true) {k : ℕ} (hk : cfg.fuel = k + 2) :
    Covers cfg (c.state.bucket b) (c.state.ctrl b 0).dataOffset [⟨fragKey ip, 0, (dataLength ip).toNat, true⟩]
      (c.state.marks cfg b 0) := by
  have hset : firstSetup cfg s b ip 0 true = setupOfs0 cfg b (s.bucket b).mem ip := if_pos rfl
  have hrec : InData cfg (min (length ip) cfg.mtu + 1) sizeofHole := by
    unfold TakeFits at hfit
    rwa [if_pos rfl] at hfit
  rw [h.marks, hset, hk, records_setupOfs0 hrec hn]
  refine Covers.single h.key.symm (by rw [h.place]; exact hh) ?_ ?_ ?_ nofun
  · intro e he
    exact .inr (by rw [List.mem_singleton.mp he])
  · intro x hx hin _
    unfold Piece.fin at hin
    refine ⟨_, List.mem_singleton_self _, ?_, ?_⟩ <;> dsimp only at hin ⊢ <;> omega
  · exact fun _ => ⟨_, List.mem_singleton_self _, rfl⟩

/-- A fragment from within a datagram. -/
theorem Taken.covers_later (h : Taken cfg s b ip offset mf c) (hh : sizeofHeader ≤ hdrLen ip) (hn : hdrLen ip ≤ length ip)
    (hfit : TakeFits cfg ip offset mf) (ho : offset ≠ 0) (hle : offset ≤ 2 ^ 31) (hmod : offset % 8 = 0) {k : ℕ}
    (hk : cfg.fuel = k + 2) (hend : offset + (dataLength ip).toNat ≤ cfg.maxFragSize)
    (hlast : mf = false → hdrLen ip ≤ hdrLen (s.bucket b).mem) :
    Covers cfg (c.state.bucket b) (c.state.ctrl b 0).dataOffset [⟨fragKey ip, offset, (dataLength ip).toNat, mf⟩]
      (c.state.marks cfg b 0) := by
  have hset : firstSetup cfg s b ip offset mf = setupLater cfg b (s.bucket b).mem ip offset mf := if_neg ho
  rw [h.marks, hset, hk, records_setupLater hfit ho hle]
  refine Covers.single h.key.symm (by rw [h.place]; exact hh) ?_ ?_ ?_ ?_
  · intro e he
    rcases List.mem_cons.mp he with rfl | he
    · exact .inl (by dsimp only; omega)
    · split_ifs at he
      · exact .inr (by rw [List.mem_singleton.mp he])
      · exact absurd he List.not_mem_nil
  · intro x hx hin hbelow
    unfold Piece.fin at hin hbelow
    dsimp only at hin hbelow
    by_cases hlt : x < offset
    · exact ⟨_, List.mem_cons_self, by dsimp only; omega, by dsimp only; omega⟩
    · have hmore : mf = true := by
        by_contra hm
        exact hin ⟨by omega, hbelow (Bool.eq_false_iff.mpr hm)⟩
      rw [if_pos hmore]
      refine ⟨_, List.mem_cons_of_mem _ (List.mem_singleton_self _), ?_, ?_⟩ <;> dsimp only <;> omega
  · intro hmore
    rw [if_pos hmore]
    exact ⟨_, List.mem_cons_of_mem _ (List.mem_singleton_self _), rfl⟩
  · rintro rfl
    refine ⟨?_, hend⟩
    have hold := hlast rfl
    have hhead : hdrLen (c.state.bucket b).mem = hdrLen (s.bucket b).mem := by
      rw [h.mem, hset]
      refine hdrLen_congr ?_
      unfold sizeofHeader at hh
      unfold setupLater putNext putEnd putStart put32
      simp only [Bool.false_eq_true, if_false]
      unfold putLength
      rw [Mem.put_of_lt (by decide), Mem.put_of_lt (by omega), Mem.put_of_lt (by omega), Mem.put_of_lt (by omega),
        Mem.blit_of_lt (by omega)]
    have hlen : length (c.state.bucket b).mem = ((dataEnd ip offset + hdrLen ip) % 2 ^ 16).toNat := by
      rw [h.mem, hset]
      exact length_putLength _
    rw [hlen, hhead]
    unfold Piece.fin dataEnd dataLength
    dsimp only
    omega

/-- **A first fragment**: what is missing is accounted for. -/
theorem Taken.covers (h : Taken cfg s b ip (fragOfs ip) (moreFrags ip) c) (hl : Looked cfg ip) (hn : hdrLen ip ≤ length ip)
    (hfit : TakeFits cfg ip (fragOfs ip) (moreFrags ip)) (hf : cfg.sizeofHuge ≤ cfg.fuel)
    (hlast : moreFrags ip = false → hdrLen ip ≤ hdrLen (s.bucket b).mem) :
    Covers cfg (c.state.bucket b) (c.state.ctrl b 0).dataOffset [pieceOf ip] (c.state.marks cfg b 0) := by
  have hh : sizeofHeader ≤ hdrLen ip := (of_decide_eq_true hl.1).2.1
  obtain ⟨k, hk⟩ : ∃ k, cfg.fuel = k + 2 := ⟨cfg.fuel - 2, by unfold Config.sizeofHuge sizeofHeader at hf; omega⟩
  have hend := (fin_of_looked hl hn).1
  rcases Nat.eq_zero_or_pos (fragOfs ip) with ho | ho
  · -- one with the offset 0 and no more to follow is no fragment
    have hmore : moreFrags ip = true := by
      by_contra hm
      exact hl.2.1 ⟨ho, hm⟩
    unfold pieceOf
    rw [ho, hmore] at h hfit ⊢
    exact h.covers_ofs0 hh hn hfit hk
  · exact h.covers_later hh hn hfit ho.ne' fragOfs_le fragOfs_mod hk hend hlast

/-! ## Events -/

/-- What of `t` has changed since `s` does not matter to what the bucket `b` accounts for. -/
def SameAccount (s t : State) (b : Bucket) : Prop :=
  SameHoles s t b ∧ (t.bucket b).key = (s.bucket b).key ∧ (t.ctrl b 0).dataOffset = (s.ctrl b 0).dataOffset

theorem SameAccount.of_eq (h : t.bucket b = s.bucket b ∧ t.ctrl b = s.ctrl b) : SameAccount s t b := by
  unfold SameAccount SameHoles
  rw [h.1, h.2]
  exact ⟨⟨rfl, rfl⟩, rfl, rfl⟩

theorem SameAccount.free {d : Bucket} (h : SameAccount s t d) : SameAccount s (ip4FreeFragment cfg t b).2 d := by
  refine ⟨h.1.trans (ip4FreeFragment_same d), ?_, ?_⟩
  · rw [← h.2.1]
    unfold ip4FreeFragment
    split_ifs with hu
    · by_cases hd : d = b
      · subst hd
        simp [State.setBucket]
      · simp [State.setBucket, hd]
    · rfl
  · rw [← h.2.2]
    unfold ip4FreeFragment
    split_ifs with hu
    · by_cases hd : d = b
      · subst hd
        simp only [Function.update_self]
        split_ifs <;> rfl
      · simp [hd]
    · rfl

theorem SameAccount.timeouts : SameAccount s (chkTimeoutFrags cfg now s) b :=
  timeoutBuckets_keep (P := fun t => SameAccount s t b) (fun _ _ h => h.free) (fun _ _ h => h) (.of_eq ⟨rfl, rfl⟩)

/-- The holes of the bucket `b` account for what the fragments `F` do not bring. -/
def Covered (cfg : Config) (s : State) (b : Bucket) (F : List Piece) : Prop :=
  Covers cfg (s.bucket b) (s.ctrl b 0).dataOffset F (s.marks cfg b 0)

theorem Covered.same (h : Covered cfg s b F) (hst : SameAccount s t b) : Covered cfg t b F := by
  obtain ⟨⟨hmem, hfirst⟩, hkey, hofs⟩ := hst
  have hmarks : t.marks cfg b 0 = s.marks cfg b 0 := by rw [State.marks, State.marks, hmem, hfirst]
  unfold Covered
  rw [hmarks, hofs]
  refine ⟨fun p hp => (h.key p hp).trans hkey.symm, h.place, h.granular, h.missing, h.endless, ?_⟩
  rw [hmem]
  exact h.total

/-- A call that returns complete datagrams only and accounts for what is missing in the others. -/
structure Accountable (cfg : Config) (P : Bucket → List Packet) (c : Call) : Prop where
  complete : ∀ b, c.result = .reassembled b → Complete ((P b).map pieceOf) (c.state.bucket b)
  covered : ∀ b, ((c.after cfg).bucket b).used = true → Covered cfg (c.after cfg) b ((P b).map pieceOf)

theorem receive_of_none (h : receiver cfg z.state pad ip = none) : z.receive cfg pad ip = z.fragments := by
  rw [Traced.receive, h]

theorem receive_self (h : receiver cfg z.state pad ip = some b) : z.receive cfg pad ip b = z.since b ++ [ip] := by
  rw [Traced.receive, h]
  exact Function.update_self ..

theorem receive_other {d : Bucket} (h : receiver cfg z.state pad ip = some b) (hd : d ≠ b) :
    z.receive cfg pad ip d = z.fragments d := by
  rw [Traced.receive, h]
  exact Function.update_of_ne hd ..

/-- A call that does nothing. -/
theorem Accounted.quiet {x : Option ℤ} {r : Result} (h : Accounted cfg z) (hr : ∀ b, r ≠ .reassembled b) :
    Accountable cfg z.fragments { state := z.state, result := r, dataLength := x } := by
  have hafter : Call.after cfg { state := z.state, result := r, dataLength := x } = z.state := by
    cases r with
    | reassembled b => exact absurd rfl (hr b)
    | whole => rfl
    | taken => rfl
  refine ⟨fun b hb => absurd hb (hr b), fun b => ?_⟩
  rw [hafter]
  exact h.covers b

/-- A fragment of a known datagram. -/
theorem Accounted.add (h : Accounted cfg z) (hu : (z.state.bucket b).used = true) (hl : Looked cfg ip)
    (hmine : fragKey ip = (z.state.bucket b).key) (hn : hdrLen ip ≤ length ip) (hf : cfg.sizeofHuge ≤ cfg.fuel)
    (hfit : AddFits cfg (z.tracked.got b) (z.state.ctrl b 0).dataOffset (fragOfs ip) (dataLength ip).toNat
      (z.state.marks cfg b 0)) (hpiece : PieceFits cfg z b ip) (hrecv : receiver cfg z.state pad ip = some b)
    (hc : addFragment cfg z.state b 0 ip (fragOfs ip) (moreFrags ip) = some c) :
    Accountable cfg (z.receive cfg pad ip) c := by
  obtain ⟨l, hne, hlist⟩ := h.sound.holes b hu
  have hlist : HoleList cfg b (z.tracked.got b) (z.state.bucket b).mem (z.state.ctrl b 0).holeFirst l := hlist
  have hmarks : l.map (mark (z.state.bucket b).mem) = z.state.marks cfg b 0 := by
    rw [State.marks, hlist.records_eq (hlist.length_le.trans hf)]
  obtain ⟨c', hc', hadd⟩ := addFragment_fits (moreFrags ip) hne rfl hlist hmarks hfit hn fragOfs_le hf
  obtain rfl := Option.some.inj (hc'.symm.trans hc)
  have hsince : z.since b = z.fragments b := if_pos hu
  have hbook : (c'.state.bucket b).used = true ∧ (c'.state.bucket b).key = (z.state.bucket b).key := by
    rcases addFragment_book hc with ⟨-, hbk⟩ | ⟨-, hbk, -⟩
    · exact ⟨(congrArg Book.used (hbk b)).trans hu, congrArg Book.key (hbk b)⟩
    · exact ⟨(congrArg Book.used hbk).trans hu, congrArg Book.key hbk⟩
  have hlast : moreFrags ip = false → hdrLen ip ≤ hdrLen (z.state.bucket b).mem ∧
      ∀ p ∈ (z.fragments b).map pieceOf, p.more = false → fragOfs ip + (dataLength ip).toNat ≤ p.fin := by
    intro hm
    obtain ⟨hold, hends⟩ := hpiece.last hm
    rw [hsince] at hends
    exact ⟨hold, hends⟩
  obtain ⟨hcomplete, hcovers⟩ := (h.covers b hu).add hl hn hadd hmine hbook.2 (fun hm => hpiece.more hm hu) hlast
  have hother : ∀ d, d ≠ b → SameAccount z.state c'.state d := fun d hd =>
    .of_eq ⟨(hadd.other d hd).1, (hadd.other d hd).2.1⟩
  have keep : ∀ {t : State} (d : Bucket), d ≠ b → SameAccount z.state t d → (t.bucket d).used = (z.state.bucket d).used →
      (t.bucket d).used = true → Covered cfg t d ((z.receive cfg pad ip d).map pieceOf) := by
    intro t d hdb hst hused hd
    rw [receive_other hrecv hdb]
    exact Covered.same (h.covers d (hused.symm.trans hd)) hst
  obtain ⟨l', m, hl', hleft, -, hcase⟩ := hadd.left
  rcases hcase with ⟨-, hr, hmem⟩ | ⟨-, hr, -⟩
  · have hafter : c'.after cfg = c'.state := by rw [Call.after, hr]
    refine ⟨fun d hd => (by cases hr.symm.trans hd), fun d hd => ?_⟩
    rw [hafter] at hd ⊢
    by_cases hdb : d = b
    · subst hdb
      have hafterMarks : c'.state.marks cfg d 0 = l'.map (mark m) := by
        rw [State.marks, hmem, hl'.records_eq (hl'.length_le.trans hf)]
      rw [receive_self hrecv, hsince, List.map_append]
      unfold Covered
      rw [hafterMarks, hleft, hadd.offset_eq]
      exact hcovers hr
    · exact keep d hdb (hother d hdb) (by rw [(hadd.other d hdb).1]) hd
  · have hafter : c'.after cfg = (ip4FreeFragment cfg c'.state b).2 := by rw [Call.after, hr]
    obtain ⟨-, hfree, hstay⟩ := ip4FreeFragment_book cfg hbook.1
    refine ⟨fun d hd => ?_, fun d hd => ?_⟩
    · obtain rfl := Result.reassembled.inj (hr.symm.trans hd)
      rw [receive_self hrecv, hsince, List.map_append]
      exact hcomplete hr
    · rw [hafter] at hd ⊢
      by_cases hdb : d = b
      · subst hdb
        exact absurd (hd.symm.trans (congrArg Book.used hfree)) Bool.false_ne_true.symm
      · refine keep d hdb (hother d hdb).free ?_ hd
        exact (congrArg Book.used (hstay d hdb)).trans (by rw [book, (hadd.other d hdb).1])

/-- The first fragment of a datagram. -/
theorem Accounted.take (h : Accounted cfg z) (hu : ¬ (z.state.bucket b).used = true) (hl : Looked cfg ip)
    (hn : hdrLen ip ≤ length ip) (hf : cfg.sizeofHuge ≤ cfg.fuel) (hfit : TakeFits cfg ip (fragOfs ip) (moreFrags ip))
    (hpiece : PieceFits cfg z b ip) (hrecv : receiver cfg z.state pad ip = some b)
    (hc : setupFirstFrag cfg now z.state b ip (fragOfs ip) (moreFrags ip) = some c) :
    Accountable cfg (z.receive cfg pad ip) c := by
  have htaken := setupFirstFrag_taken (h.sound.kept.vacant hu) hn hc
  have hsince : z.since b = [] := if_neg hu
  have hafter : c.after cfg = c.state := by rw [Call.after, htaken.result]
  refine ⟨fun d hd => (by cases htaken.result.symm.trans hd), fun d hd => ?_⟩
  rw [hafter] at hd ⊢
  by_cases hdb : d = b
  · subst hdb
    rw [receive_self hrecv, hsince]
    exact htaken.covers hl hn hfit hf fun hm => (hpiece.last hm).1
  · rw [receive_other hrecv hdb]
    refine Covered.same (h.covers d ?_) (.of_eq (htaken.other d hdb))
    rwa [(htaken.other d hdb).1] at hd

/-- **What a packet that fits does**: nothing, or it is a further fragment for a bucket, or the first one. -/
theorem call_kinds (h : Kept cfg z.state) (hfit : Fits cfg z.tracked pad ip)
    (hc : handlerCall cfg now pad z.state ip = some c) :
    (receiver cfg z.state pad ip = none ∧ ∃ x r, (∀ b, r ≠ .reassembled b) ∧
      c = { state := z.state, result := r, dataLength := x }) ∨
    ∃ b, receiver cfg z.state pad ip = some b ∧ Looked cfg ip ∧ hdrLen ip ≤ length ip ∧
      ((z.state.bucket b).used = true ∧ fragKey ip = (z.state.bucket b).key ∧
          AddFits cfg (z.tracked.got b) (z.state.ctrl b 0).dataOffset (fragOfs ip) (dataLength ip).toNat
            (z.state.marks cfg b 0) ∧
          addFragment cfg z.state b 0 ip (fragOfs ip) (moreFrags ip) = some c ∨
        ¬ (z.state.bucket b).used = true ∧ TakeFits cfg ip (fragOfs ip) (moreFrags ip) ∧
          setupFirstFrag cfg now z.state b ip (fragOfs ip) (moreFrags ip) = some c) := by
  have measured (hl : Looked cfg ip) (hm : ¬ (¬ (matchFrag cfg z.state pad ip).found = true ∧
      (matchFrag cfg z.state pad ip).slot = some (cfg.maxFragments - 1))) :=
    hfit (show Measured cfg z.state pad ip from ⟨hl.1, hl.2.1, hm⟩)
  by_cases hl : Looked cfg ip
  · rw [handlerCall_eq hl rfl] at hc
    rcases matchFrag_cases pad ip h rfl with ⟨b, hmine, hfd, hb, hs⟩ | ⟨-, hfd, hs⟩ | ⟨hfd, hb, hs, -, hfree, -⟩
    · have hrecv : receiver cfg z.state pad ip = some b := by
        rw [receiver, if_pos ⟨hl, .inl hfd⟩, hb]
        rfl
      obtain ⟨hn, hfit⟩ := measured hl fun h' => h'.1 hfd
      simp only [hfd, hb, hs, not_true_eq_false, false_and, if_false] at hc
      exact .inr ⟨b, hrecv, hl, hn, .inl ⟨hmine.1, hmine.2.1, (hfit hl.2.2).1 b 0 hb hs, hc⟩⟩
    · rw [if_pos ⟨by simp [hfd], hs⟩] at hc
      refine .inl ⟨if_neg fun h' => ?_, _, _, by simp, (Option.some.inj hc).symm⟩
      simp [hfd, hs] at h'
    · have hrecv : receiver cfg z.state pad ip = (matchFrag cfg z.state pad ip).freeBucket := by
        rw [receiver, if_pos ⟨hl, .inr hs⟩, hb]
        rfl
      obtain ⟨hn, hfit⟩ := measured hl fun h' => by simp [hs] at h'
      rw [if_neg (by simp [hs]), hb] at hc
      cases hfb : (matchFrag cfg z.state pad ip).freeBucket with
      | none =>
        simp only [hfb] at hc
        exact .inl ⟨hrecv.trans hfb, _, _, by simp, (Option.some.inj hc).symm⟩
      | some b =>
        have hu := hfree b hfb
        have h0 : ¬ (z.state.bucket b).active = cfg.maxFragments := by
          have : (z.state.bucket b).active = 0 := (h.vacant hu).active
          rw [this]
          exact cfg.pos.ne
        simp only [hfb, if_neg h0] at hc
        have htake : TakeFits cfg ip (fragOfs ip) (moreFrags ip) :=
          (hfit hl.2.2).2 hb (show (matchFrag cfg z.state pad ip).freeBucket ≠ none by simp [hfb])
        exact .inr ⟨b, hrecv.trans hfb, hl, hn, .inr ⟨hu, htake, hc⟩⟩
  · obtain ⟨x, r, hr, -, he⟩ := handlerCall_quiet now pad hl
    exact .inl ⟨if_neg fun h' => hl h'.1, x, r, hr, Option.some.inj (hc.symm.trans he)⟩

/-- **A packet that fits.** -/
theorem Accounted.call (h : Accounted cfg z) (hf : cfg.sizeofHuge ≤ cfg.fuel) (hfit : Fits cfg z.tracked pad ip)
    (hp : ∀ b, receiver cfg z.state pad ip = some b → PieceFits cfg z b ip)
    (hc : handlerCall cfg now pad z.state ip = some c) : Accountable cfg (z.receive cfg pad ip) c := by
  rcases call_kinds h.sound.kept hfit hc with ⟨hrecv, x, r, hr, rfl⟩ | ⟨b, hrecv, hl, hn, hkind⟩
  · rw [receive_of_none hrecv]
    exact h.quiet hr
  · rcases hkind with ⟨hu, hmine, hadd, hc⟩ | ⟨hu, htake, hc⟩
    · exact h.add hu hl hmine hn hf hadd (hp b hrecv) hrecv hc
    · exact h.take hu hl hn hf htake (hp b hrecv) hrecv hc

/-- **An event that fits** keeps the law and the invariant. -/
theorem trace_accounted (hf : cfg.sizeofHuge ≤ cfg.fuel) {x : Option Traced} {ev : Event}
    (h : ∀ z ∈ x, Accounted cfg z) (hr : CompleteRule cfg x ev) :
    CompleteLaw cfg x ev ∧ ∀ z ∈ trace cfg x ev, Accounted cfg z := by
  cases x with
  | none => exact ⟨nofun, nofun⟩
  | some z =>
    have h := h z rfl
    cases ev with
    | packet now pad ip =>
      obtain ⟨hfit, hpiece⟩ := hr z rfl
      have hsound : ∀ y ∈ track cfg (some z.tracked) (.packet now pad ip), Sound cfg y := by
        refine (track_sound hf (x := some z.tracked) ?_ ?_).2
        · rintro y ⟨⟩
          exact h.sound
        · rintro y ⟨⟩
          exact hfit
      constructor
      · rintro y ⟨⟩ c b hc hb
        exact (h.call hf hfit hpiece hc).complete b hb
      · intro u hu
        obtain ⟨y, hy, rfl⟩ := Option.map_eq_some_iff.mp hu
        refine ⟨hsound y hy, ?_⟩
        obtain ⟨c, hc, rfl⟩ := Option.map_eq_some_iff.mp hy
        exact (h.call hf hfit hpiece hc).covered
    | timeouts now =>
      refine ⟨by rintro y ⟨⟩; trivial, ?_⟩
      rintro u ⟨⟩
      refine ⟨h.sound.timeouts, fun b hu => ?_⟩
      exact Covered.same (s := z.state) (h.covers b (used_of_timeouts h.sound.kept hu)) SameAccount.timeouts

/-- **Reassembly is sound**: along every run of packets that fit, a datagram that is returned is complete. -/
theorem reassembly_complete (cfg : Config) (evs : List Event) (hfuel : cfg.sizeofHuge ≤ cfg.fuel)
    (hfit : Machine.Always (trace cfg) (CompleteRule cfg) (some {}) evs) :
    Machine.Always (trace cfg) (CompleteLaw cfg) (some {}) evs := by
  refine Machine.always_of_invariant (I := fun x : Option Traced => ∀ z ∈ x, Accounted cfg z) ?_ evs ?_ hfit
  · exact fun x ev hx hr => (trace_accounted hfuel hx hr).symm
  · rintro z ⟨⟩
    exact Accounted.init

/-- The only hole of a bucket: it is taken off, or lies away from the data. -/
theorem AddFits.single {k : Mark} (hdata : InData cfg (D + offset) n) (hr : ¬ k.LeavesRest offset (offset + n))
    (hc : k.Covers offset (offset + n) ∨ Apart k.place sizeofHole (D + offset) n) : AddFits cfg got D offset n [k] where
  data _ := hdata
  clear _ e he := by
    simp only [stays, Bool.false_eq_true, not_false_eq_true, and_true, List.append_nil] at he
    split_ifs at he with hcov
    · exact absurd he List.not_mem_nil
    · rw [List.mem_singleton.mp he]
      exact hc.resolve_left hcov
  rest e he hrest := absurd (List.mem_singleton.mp he ▸ hrest) hr
  stay e he hrest := by
    simp only [stays, Bool.false_eq_true, not_false_eq_true, and_true, List.append_nil] at he
    split_ifs at he
    · exact absurd he List.not_mem_nil
    · exact absurd (List.mem_singleton.mp he ▸ hrest) hr

/-- A further fragment, for a bucket with one hole. -/
theorem completeRule_single {k : Mark} {x : Option Traced} (hx : x = some z)
    (hmatch : (matchFrag cfg z.state pad ip).bucket = some b ∧ (matchFrag cfg z.state pad ip).slot = some 0)
    (hmarks : z.state.marks cfg b 0 = [k]) (hn : hdrLen ip ≤ length ip)
    (hfit : AddFits cfg (z.tracked.got b) (z.state.ctrl b 0).dataOffset (fragOfs ip) (dataLength ip).toNat [k])
    (hmore : moreFrags ip = true → fragOfs ip + (dataLength ip).toNat < cfg.maxFragSize ∧
      NotWithin (fragOfs ip) (fragOfs ip + (dataLength ip).toNat) [k])
    (hlast : moreFrags ip = false → hdrLen ip ≤ hdrLen (z.state.bucket b).mem ∧
      ∀ p ∈ (z.since b).map pieceOf, p.more = false → fragOfs ip + (dataLength ip).toNat ≤ p.fin) :
    CompleteRule cfg x (.packet now pad ip) := by
  subst hx
  rintro y ⟨⟩
  refine ⟨fun _ => ⟨hn, fun _ => ⟨fun d i hd hi => ?_, fun hd => ?_⟩⟩, fun d hd => ?_⟩
  · obtain rfl := Option.some.inj (hmatch.1.symm.trans hd)
    obtain rfl := Option.some.inj (hmatch.2.symm.trans hi)
    have hmarks : z.tracked.state.marks cfg b 0 = [k] := hmarks
    rw [hmarks]
    exact hfit
  · exact absurd (hmatch.1.symm.trans hd) (Option.some_ne_none b)
  · have hbd : b = d := by
      rw [receiver] at hd
      split_ifs at hd
      rw [hmatch.1] at hd
      exact Option.some.inj hd
    subst hbd
    refine ⟨fun hm _ => ?_, hlast⟩
    rw [hmarks]
    exact hmore hm

/-- A fragment of one datagram: the low byte of its length, its offset with the flags, and its header checksum. -/
def fragmentOf (len : Byte) (frag sum : List Byte) : Packet :=
  Mem.put (fun _ => 0) 0 ([0x45, 0, 0, len, 0, 1] ++ frag ++ [64, 17] ++ sum ++ [10, 0, 0, 1, 10, 0, 0, 2])

/-- The first 24 bytes, then the last 8 of 56, then the 24 between. -/
def lastBefore : List Event :=
  [.packet 1000 0 (fragmentOf 44 [0x20, 0] [0x46, 0xBE]), .packet 1000 0 (fragmentOf 28 [0, 6] [0x66, 0xC8]),
    .packet 1000 0 (fragmentOf 44 [0x20, 3] [0x46, 0xBB])]

/-- The state after the first `n` events. -/
def tracedBefore (evs : List Event) (n : ℕ) : Option Traced := Machine.run (trace plainConfig) (some {}) (evs.take n)

theorem lastBefore_isSome :
    (tracedBefore lastBefore 1).isSome = true ∧ (tracedBefore lastBefore 2).isSome = true := by decide +kernel

theorem last₁ : (tracedBefore lastBefore 1).isSome = true := lastBefore_isSome.1

theorem last₂ : (tracedBefore lastBefore 2).isSome = true := lastBefore_isSome.2

theorem lastBefore_fits : Machine.Always (trace plainConfig) (CompleteRule plainConfig) (some {}) lastBefore := by
  refine ⟨?_, ?_, ?_, trivial⟩
  · rintro z ⟨⟩
    have hfree : (matchFrag plainConfig {} 0 (fragmentOf 44 [0x20, 0] [0x46, 0xBE])).bucket = none := by decide +kernel
    refine ⟨fun _ => ⟨by decide +kernel, fun _ => ⟨fun b i hb => ?_, fun _ _ => ?_⟩⟩, fun b hb => ⟨fun _ hu => ?_, fun hm => ?_⟩⟩
    · exact absurd (hfree.symm.trans hb) (Option.some_ne_none b).symm
    · exact .inr ⟨by decide +kernel, by decide +kernel⟩
    · exact absurd hu Bool.false_ne_true
    · exact absurd hm (by decide +kernel)
  · refine completeRule_single (b := 0) (k := ⟨45, 24, 66600⟩) (Option.some_get last₁).symm ⟨by decide +kernel, by decide +kernel⟩
      (by decide +kernel) (by decide +kernel) (.single ?_ ?_ ?_) ?_ ?_
    · exact .inr ⟨by decide +kernel, by decide +kernel⟩
    · decide +kernel
    · exact .inr (.inr (.inr (.inl (by decide +kernel))))
    · exact fun hm => absurd hm (by decide +kernel)
    · exact fun _ => ⟨by decide +kernel, by decide +kernel⟩
  · refine completeRule_single (b := 0) (k := ⟨45, 24, 47⟩) (Option.some_get last₂).symm ⟨by decide +kernel, by decide +kernel⟩
      (by decide +kernel) (by decide +kernel) (.single ?_ ?_ ?_) ?_ ?_
    · exact .inr ⟨by decide +kernel, by decide +kernel⟩
    · decide +kernel
    · exact .inl (by decide +kernel)
    · refine fun _ => ⟨by decide +kernel, fun k hk _ hlt => ?_⟩
      rw [List.mem_singleton.mp hk] at hlt
      exact absurd hlt (by decide +kernel)
    · exact fun hm => absurd hm (by decide +kernel)

theorem reassembly_complete_last : plainConfig.sizeofHuge ≤ plainConfig.fuel ∧
    Machine.Always (trace plainConfig) (CompleteLaw plainConfig) (some {}) lastBefore :=
  ⟨by decide, reassembly_complete plainConfig _ (by decide) lastBefore_fits⟩

/-- Three fragments of 24 bytes, all with more to follow: the first, the third and the second. -/
def noLast : List Event :=
  [.packet 1000 0 (fragmentOf 44 [0x20, 0] [0x46, 0xBE]), .packet 1000 0 (fragmentOf 44 [0x20, 6] [0x46, 0xB8]),
    .packet 1000 0 (fragmentOf 44 [0x20, 3] [0x46, 0xBB])]

theorem tracedBefore_isSome : (tracedBefore noLast 2).isSome = true := by decide +kernel

/-- **The claim fails**: the third cuts the hole behind the first and forgets what is behind it, the second fills the
rest, and the datagram is returned though its last fragment has not come. -/
theorem returned_without_last :
    ¬ ∀ (cfg : Config) (evs : List Event), Machine.Always (trace cfg) (CompleteLaw cfg) (some {}) evs := by
  intro h
  obtain ⟨-, -, hlaw, -⟩ := h plainConfig noLast
  have hlaw := hlaw _ (Option.get_mem tracedBefore_isSome)
  have hcall : (handlerCall plainConfig 1000 0 ((tracedBefore noLast 2).get tracedBefore_isSome).state
      (fragmentOf 44 [0x20, 3] [0x46, 0xBB])).map Call.result = some (.reassembled 0) := by decide +kernel
  obtain ⟨c, hc, hr⟩ := Option.map_eq_some_iff.mp hcall
  obtain ⟨p, hp, -, hmore⟩ := (hlaw c 0 hc hr).last
  have hall : ∀ p ∈ ((tracedBefore noLast 2).get tracedBefore_isSome).receive plainConfig 0
      (fragmentOf 44 [0x20, 3] [0x46, 0xBB]) 0, moreFrags p = true := by decide +kernel
  obtain ⟨q, hq, rfl⟩ := List.mem_map.mp hp
  exact absurd ((hall q hq).symm.trans hmore) (by decide)

end Watt32.Frag
