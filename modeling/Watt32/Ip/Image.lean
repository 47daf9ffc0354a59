import Watt32.Ip.Coverage

/-!
# What is left of an earlier datagram

The packet that `ip4_defragment` returns, in a buffer that is not cleared when its bucket is taken again.

* `Image`, `replay`: the buffer as the fragments of one datagram make it, in a buffer of zeros.
* `IsolationLaw`: the packet has the addresses of its key, and its bytes are a function of the fragments.
* `IsolationRule`: a bucket is taken by the fragment with offset 0, which comes as a whole, and the fragments are
  such that a datagram is complete when it is returned.
* `Mirrors`: the header and the data in a bucket are those of the image.
* **`reassembly_isolated`**: a run of such packets returns packets that depend on their fragments only.
-/

namespace Watt32.Frag

/-! ## A buffer of zeros -/

/-- The bytes of a packet, by the length in its header. -/
def bytesOf (ip : Packet) : List Byte := Mem.slice ip 0 (length ip)

/-- A packet of these bytes. -/
def ofBytes (l : List Byte) : Packet := Mem.put (fun _ => 0) 0 l

/-- What fragments make of a bucket: where the data begins, the bytes, which of them have come, and the holes. -/
structure Image where
  place : ℕ
  bytes : ℕ → Byte
  got : Got
  holes : List Mark

/-- The image of the fragment with offset 0. -/
def Image.first (cfg : Config) (ip : Packet) : Image where
  place := hdrLen ip
  bytes := ip
  got := [(hdrLen ip, length ip - hdrLen ip)]
  holes := [⟨length ip + 1, (dataLength ip).toNat, cfg.maxFragSize⟩]

/-- The fragment meets a hole. -/
def Image.Meets (v : Image) (ip : Packet) : Prop :=
  ∃ k ∈ v.holes, k.Touches (fragOfs ip) (fragOfs ip + (dataLength ip).toNat)

instance {v : Image} {ip : Packet} : Decidable (v.Meets ip) :=
  inferInstanceAs (Decidable (∃ k ∈ v.holes, k.Touches (fragOfs ip) (fragOfs ip + (dataLength ip).toNat)))

/-- The image with a further fragment. -/
def Image.add (v : Image) (ip : Packet) : Image :=
  let n := (dataLength ip).toNat
  let a := v.place + fragOfs ip
  let m := lengthened v.bytes ip (fragOfs ip) (moreFrags ip)
  { v with
    bytes := if v.Meets ip then Mem.blit m a ip (hdrLen ip) n else m
    got := v.got ++ if v.Meets ip then [(a, n)] else []
    holes := leftOver (a + n + 1) (fragOfs ip) (fragOfs ip + n) false v.holes }

/-- The image of fragments in the order they come. -/
def replay (cfg : Config) (F : List Packet) : Option Image :=
  F.foldl (fun v ip => some (v.elim (.first cfg ip) (·.add ip))) none

theorem replay_append (cfg : Config) (F : List Packet) (ip : Packet) :
    replay cfg (F ++ [ip]) = some ((replay cfg F).elim (.first cfg ip) (·.add ip)) := by
  rw [replay, List.foldl_append]
  rfl

/-- The packet that fragments make. -/
def assembled (cfg : Config) (F : List (List Byte)) : List Byte :=
  (replay cfg (F.map ofBytes)).elim [] fun v => bytesOf (finishHeader v.bytes)

/-! ## The law -/

/-- The packet has the addresses of its key, and `f` of its fragments gives its bytes. -/
def IsolationLaw (cfg : Config) (f : List (List Byte) → List Byte) (x : Option Traced) (ev : Event) : Prop :=
  ∀ z ∈ x,
    match ev with
    | .packet now pad ip => ∀ c b, handlerCall cfg now pad z.state ip = some c → c.result = .reassembled b →
        be32 (c.state.bucket b).mem 12 = (c.state.bucket b).key.source ∧
          be32 (c.state.bucket b).mem 16 = (c.state.bucket b).key.destin ∧
          (c.state.bucket b).mem 9 = (c.state.bucket b).key.proto ∧
          bytesOf (c.state.bucket b).mem = f ((z.receive cfg pad ip b).map bytesOf)
    | .timeouts _ => True

/-- The rule for an event: a bucket is taken by a fragment with offset 0 that is not longer than the link allows. -/
def IsolationRule (cfg : Config) (x : Option Traced) (ev : Event) : Prop :=
  CompleteRule cfg x ev ∧ ∀ z ∈ x,
    match ev with
    | .packet _ pad ip => ∀ b, receiver cfg z.state pad ip = some b → ¬ (z.state.bucket b).used = true →
        fragOfs ip = 0 ∧ length ip ≤ cfg.mtu
    | .timeouts _ => True

/-! ## The invariant -/

/-- A packet as its bytes tell it. -/
abbrev trim (ip : Packet) : Packet := ofBytes (bytesOf ip)

/-- The header and the data in the bucket `b` are those of the image `v` of its fragments. -/
structure Mirrors (cfg : Config) (fb : FragBucket) (D : ℕ) (ks : List Mark) (got : Got) (F : List Packet) (v : Image) :
    Prop where
  replayed : replay cfg (F.map trim) = some v
  place : D = v.place
  long : sizeofHeader ≤ v.place
  holes : ks = v.holes
  got : got = v.got
  behind : ∀ k ∈ v.holes, v.place ≤ k.place
  header : ∀ i < v.place, fb.mem i = v.bytes i
  data : ∀ g ∈ v.got, ∀ i, g.1 ≤ i → i < g.1 + g.2 → fb.mem i = v.bytes i
  key : fragKey v.bytes = fb.key
  hdr : hdrLen v.bytes = v.place
  missing : ∀ x : ℕ, x < cfg.maxFragSize → (∀ p ∈ F.map pieceOf, p.more = false → x < p.fin) →
    (∃ g ∈ v.got, g.1 ≤ v.place + x ∧ v.place + x < g.1 + g.2) ∨ ∃ k ∈ v.holes, k.Misses x

variable {cfg : Config} {z : Traced} {s t : State} {now : Dword} {pad : Byte} {ip : Packet} {offset n a D i : ℕ}
  {mf : Bool} {b : Bucket} {m m' : ℕ → Byte} {ks : List Mark} {got : Got} {F : List Packet} {fb : FragBucket} {c : Call}
  {v : Image}

/-! ## Bytes of a packet -/

theorem trim_apply (h : i < length ip) : trim ip i = ip i := by
  unfold trim ofBytes
  have hi : i < (bytesOf ip).length := by
    unfold bytesOf
    rwa [Mem.length_slice]
  have h0 : Mem.put (fun _ => 0) 0 (bytesOf ip) (0 + i) = (bytesOf ip)[i] := Mem.put_of_mem hi
  rw [Nat.zero_add] at h0
  rw [h0]
  simp [bytesOf, Mem.slice]

/-- What the header tells is the same in packets with the same header. -/
theorem head_congr {ip' : Packet} (h : ∀ i < sizeofHeader, ip' i = ip i) :
    hdrLen ip' = hdrLen ip ∧ length ip' = length ip ∧ fragOfs ip' = fragOfs ip ∧ moreFrags ip' = moreFrags ip ∧
      fragKey ip' = fragKey ip := by
  have h (i) (hi : i < 20) : ip' i = ip i := h i hi
  refine ⟨hdrLen_congr (h 0 (by decide)), length_congr (h 2 (by decide)) (h 3 (by decide)), ?_, ?_, ?_⟩
  · unfold fragOfs be16
    rw [h 6 (by decide), h 7 (by decide)]
  · unfold moreFrags be16
    rw [h 6 (by decide), h 7 (by decide)]
  · unfold fragKey be32 be16
    rw [h 12 (by decide), h 13 (by decide), h 14 (by decide), h 15 (by decide), h 16 (by decide), h 17 (by decide),
      h 18 (by decide), h 19 (by decide), h 4 (by decide), h 5 (by decide), h 9 (by decide)]

theorem trim_head (hh : sizeofHeader ≤ hdrLen ip) (hn : hdrLen ip ≤ length ip) :
    hdrLen (trim ip) = hdrLen ip ∧ length (trim ip) = length ip ∧ fragOfs (trim ip) = fragOfs ip ∧
      moreFrags (trim ip) = moreFrags ip ∧ fragKey (trim ip) = fragKey ip :=
  head_congr fun _ hi => trim_apply (by omega)

theorem lengthened_congr {ip' : Packet} (hm : m' i = m i) (hh : hdrLen ip' = hdrLen ip) (hl : length ip' = length ip) :
    lengthened m' ip' offset mf i = lengthened m ip offset mf i := by
  unfold lengthened putLength dataEnd dataLength Mem.put
  rw [hh, hl]
  split_ifs <;> simp only [hm]

theorem finishHeader_congr (h : ∀ j < sizeofHeader, m' j = m j) (hi : m' i = m i) : finishHeader m' i = finishHeader m i := by
  have zeroed {j : ℕ} (hj : m' j = m j) :
      Mem.put (Mem.put m' 6 [0, 0]) 10 [0, 0] j = Mem.put (Mem.put m 6 [0, 0]) 10 [0, 0] j := by
    simp only [Mem.put, hj]
  have hsum : Mem.slice (Mem.put (Mem.put m' 6 [0, 0]) 10 [0, 0]) 0 sizeofHeader =
      Mem.slice (Mem.put (Mem.put m 6 [0, 0]) 10 [0, 0]) 0 sizeofHeader :=
    Mem.slice_congr fun j hj => zeroed (by rw [Nat.zero_add]; exact h j hj)
  unfold finishHeader
  rw [hsum]
  unfold Mem.put at zeroed ⊢
  rw [zeroed hi]

/-! ## The first fragment -/

/-- The buffer holds the fragment with offset 0. -/
theorem setupOfs0_apply (hmtu : length ip ≤ cfg.mtu) (hi : i < length ip) : (setupOfs0 cfg b m ip).mem i = ip i := by
  unfold setupOfs0 putNext putEnd putStart put32
  dsimp only
  rw [Nat.min_eq_left hmtu, Mem.put_of_lt (by omega), Mem.put_of_lt (by omega), Mem.put_of_lt (by omega),
    Mem.blit_of_mem (Nat.zero_le i) (by omega)]
  simp

theorem Taken.mirrors (h : Taken cfg s b ip 0 true c) (hh : sizeofHeader ≤ hdrLen ip) (hn : hdrLen ip ≤ length ip)
    (hmtu : length ip ≤ cfg.mtu) (hfit : TakeFits cfg ip 0 true) (hf : cfg.sizeofHuge ≤ cfg.fuel) :
    Mirrors cfg (c.state.bucket b) (c.state.ctrl b 0).dataOffset (c.state.marks cfg b 0) (payloads b c.writes) [ip]
      (Image.first cfg (trim ip)) := by
  obtain ⟨k, hk⟩ : ∃ k, cfg.fuel = k + 1 := ⟨cfg.fuel - 1, by unfold Config.sizeofHuge sizeofHeader at hf; omega⟩
  obtain ⟨hhdr, hlen, -, -, hkey⟩ := trim_head hh hn
  have hset : firstSetup cfg s b ip 0 true = setupOfs0 cfg b (s.bucket b).mem ip := if_pos rfl
  have hrec : InData cfg (min (length ip) cfg.mtu + 1) sizeofHole := by
    unfold TakeFits at hfit
    rwa [if_pos rfl] at hfit
  have hdl : dataLength (trim ip) = dataLength ip := by
    unfold dataLength
    rw [hhdr, hlen]
  have hmem : ∀ i < length ip, (c.state.bucket b).mem i = trim ip i := by
    intro i hi
    rw [h.mem, hset, setupOfs0_apply hmtu hi, trim_apply hi]
  unfold Image.first
  rw [hhdr, hlen, hdl]
  constructor
  · show some (Image.first cfg (trim ip)) = _
    unfold Image.first
    rw [hhdr, hlen, hdl]
  · exact h.place
  · exact hh
  · rw [h.marks, hset, hk, records_setupOfs0 hrec hn, Nat.min_eq_left hmtu]
  · rw [h.writes, hset]
    simp [setupOfs0, payloads, Nat.min_eq_left hmtu]
  · intro e he
    rw [List.mem_singleton.mp he]
    dsimp only
    omega
  · exact fun i hi => hmem i (Nat.lt_of_lt_of_le hi hn)
  · intro g hg i _ hi
    rw [List.mem_singleton.mp hg] at hi
    dsimp only at hi
    exact hmem i (by omega)
  · exact hkey.trans h.key.symm
  · exact hhdr
  · intro x hx _
    by_cases hin : hdrLen ip + x < length ip
    · exact .inl ⟨_, List.mem_singleton_self _, by dsimp only; omega, by dsimp only; omega⟩
    · refine .inr ⟨_, List.mem_singleton_self _, ?_, ?_⟩ <;> unfold dataLength <;> dsimp only <;> omega

/-! ## A further fragment -/

/-- What has come and the header before it: no record is written there. -/
def Mirrors.keeps (v : Image) : Got := (sizeofHeader, v.place - sizeofHeader) :: v.got

theorem Mirrors.good (h : Mirrors cfg fb D ks got F v) (ha : Good cfg got a) (hD : v.place ≤ a) :
    Good cfg (Mirrors.keeps v) a := by
  have hlong := h.long
  refine ⟨ha.1, List.forall_mem_cons.mpr ⟨?_, h.got ▸ ha.2⟩⟩
  exact .inr (.inr (.inr (by dsimp only; omega)))

/-- The header and the data lie away from the records. -/
theorem Mirrors.notIn (h : Mirrors cfg fb D ks got F v) {p : ℕ}
    (hp : p < v.place ∨ ∃ g ∈ v.got, g.1 ≤ p ∧ p < g.1 + g.2) : ∀ a, Good cfg (Mirrors.keeps v) a → NotIn p a := by
  have hlong := h.long
  intro a ⟨hin, hapart⟩
  have hin := (hin.resolve_left (by decide)).1
  unfold NotIn
  obtain ⟨g, hg, hlo, hhi⟩ | hlow : (∃ g ∈ Mirrors.keeps v, g.1 ≤ p ∧ p < g.1 + g.2) ∨ p < sizeofHeader := by
    rcases hp with hp | ⟨g, hg, hp⟩
    · rcases Nat.lt_or_ge p sizeofHeader with hlt | hge
      · exact .inr hlt
      · exact .inl ⟨_, List.mem_cons_self, hge, by dsimp only; omega⟩
    · exact .inl ⟨g, List.mem_cons_of_mem _ hg, hp⟩
  · have hg := hapart g hg
    unfold Apart at hg
    omega
  · omega

theorem Image.add_bytes (p : ℕ) : (v.add ip).bytes p =
    if v.Meets ip ∧ v.place + fragOfs ip ≤ p ∧ p < v.place + fragOfs ip + (dataLength ip).toNat then
      ip (hdrLen ip + (p - (v.place + fragOfs ip)))
    else lengthened v.bytes ip (fragOfs ip) (moreFrags ip) p := by
  unfold Image.add
  dsimp only
  by_cases hm : v.Meets ip
  · rw [if_pos hm, Mem.blit]
    exact if_congr (by simp [hm]) rfl rfl
  · rw [if_neg hm, if_neg fun h => hm h.1]

/-- The image with a fragment and with its bytes. -/
theorem Image.add_trim (hh : sizeofHeader ≤ hdrLen ip) (hn : hdrLen ip ≤ length ip) : v.add (trim ip) = v.add ip := by
  obtain ⟨hhdr, hlen, hofs, hmore, -⟩ := trim_head hh hn
  have hdl : dataLength (trim ip) = dataLength ip := by
    unfold dataLength
    rw [hhdr, hlen]
  have hmeets : v.Meets (trim ip) ↔ v.Meets ip := by
    unfold Image.Meets
    rw [hofs, hdl]
  have hbytes : (v.add (trim ip)).bytes = (v.add ip).bytes := by
    funext p
    rw [Image.add_bytes, Image.add_bytes, hofs, hdl, hhdr, hmore]
    by_cases hin : v.Meets ip ∧ v.place + fragOfs ip ≤ p ∧ p < v.place + fragOfs ip + (dataLength ip).toNat
    · rw [if_pos hin, if_pos ⟨hmeets.mpr hin.1, hin.2⟩]
      unfold dataLength at hin
      exact trim_apply (by omega)
    · rw [if_neg hin, if_neg fun h => hin ⟨hmeets.mp h.1, h.2⟩]
      exact lengthened_congr rfl hhdr hlen
  unfold Image.add at hbytes ⊢
  dsimp only at hbytes ⊢
  rw [hbytes, hofs, hdl]
  simp only [hmeets]

/-- The bytes behind a further fragment. -/
theorem Mirrors.bytes (h : Mirrors cfg fb D ks got F v)
    (hm : ∀ p, (v.Meets ip ∧ v.place + fragOfs ip ≤ p ∧ p < v.place + fragOfs ip + (dataLength ip).toNat ∨
        ∀ a, Good cfg (Mirrors.keeps v) a → NotIn p a) →
      m p = if v.Meets ip ∧ v.place + fragOfs ip ≤ p ∧ p < v.place + fragOfs ip + (dataLength ip).toNat then
          ip (hdrLen ip + (p - (v.place + fragOfs ip)))
        else lengthened fb.mem ip (fragOfs ip) (moreFrags ip) p) :
    (∀ i < v.place, m i = (v.add ip).bytes i) ∧
      ∀ g ∈ (v.add ip).got, ∀ i, g.1 ≤ i → i < g.1 + g.2 → m i = (v.add ip).bytes i := by
  have old (p : ℕ) (hp : p < v.place ∨ ∃ g ∈ v.got, g.1 ≤ p ∧ p < g.1 + g.2) : m p = (v.add ip).bytes p := by
    rw [hm p (.inr (h.notIn hp)), Image.add_bytes]
    have hold : fb.mem p = v.bytes p := by
      rcases hp with hp | ⟨g, hg, hlo, hhi⟩
      · exact h.header p hp
      · exact h.data g hg p hlo hhi
    rw [lengthened_congr hold rfl rfl]
  refine ⟨fun i hi => old i (.inl hi), fun g hg i hlo hhi => ?_⟩
  rcases List.mem_append.mp hg with hg | hg
  · exact old i (.inr ⟨g, hg, hlo, hhi⟩)
  · split_ifs at hg with hmeets
    · rw [List.mem_singleton.mp hg] at hlo hhi
      have hin : v.Meets ip ∧ v.place + fragOfs ip ≤ i ∧ i < v.place + fragOfs ip + (dataLength ip).toNat :=
        ⟨hmeets, hlo, hhi⟩
      rw [hm i (.inl hin), Image.add_bytes, if_pos hin, if_pos hin]
    · exact absurd hg List.not_mem_nil

/-- Of the header only the length changes. -/
theorem Image.add_header {p : ℕ} (hp : p < v.place) (h₂ : p ≠ 2) (h₃ : p ≠ 3) : (v.add ip).bytes p = v.bytes p := by
  rw [Image.add_bytes, if_neg fun h => by omega]
  unfold lengthened
  split_ifs
  · rfl
  · unfold putLength
    rcases Nat.lt_or_ge p 2 with hlt | hge
    · exact Mem.put_of_lt hlt
    · exact Mem.put_of_ge (by simp only [bytes16, List.length_cons, List.length_nil]; omega)

theorem fragKey_congr (h : ∀ i, 4 ≤ i → i < sizeofHeader → i ≠ 6 → i ≠ 7 → i ≠ 10 → i ≠ 11 → m' i = m i) :
    fragKey m' = fragKey m := by
  have h (i) (h₁ : 4 ≤ i ∧ i < 20 ∧ i ≠ 6 ∧ i ≠ 7 ∧ i ≠ 10 ∧ i ≠ 11) : m' i = m i :=
    h i h₁.1 h₁.2.1 h₁.2.2.1 h₁.2.2.2.1 h₁.2.2.2.2.1 h₁.2.2.2.2.2
  unfold fragKey be32 be16
  rw [h 12 (by decide), h 13 (by decide), h 14 (by decide), h 15 (by decide), h 16 (by decide), h 17 (by decide),
    h 18 (by decide), h 19 (by decide), h 4 (by decide), h 5 (by decide), h 9 (by decide)]

theorem mem_of_mem_stays {start fin : ℤ} {stale : Bool} {k : Mark} (h : k ∈ stays start fin stale ks) : k ∈ ks := by
  induction ks generalizing stale with
  | nil => exact h
  | cons e ks ih =>
    rcases List.mem_append.mp h with h | h
    · split_ifs at h
      · exact absurd h List.not_mem_nil
      · rw [List.mem_singleton.mp h]
        exact List.mem_cons_self
    · exact List.mem_cons_of_mem _ (ih h)

theorem Mirrors.addFits (h : Mirrors cfg fb D ks got F v) (hfit : AddFits cfg got D offset n ks) :
    AddFits cfg (Mirrors.keeps v) D offset n ks where
  data := hfit.data
  clear := hfit.clear
  rest k hk hr := by
    obtain ⟨hg, hother⟩ := hfit.rest k hk hr
    exact ⟨h.good hg (by have := h.place; omega), hother⟩
  stay := hfit.stay

theorem Mirrors.holeList {first : Dword} {l : List ℕ} (h : Mirrors cfg fb D ks got F v) (hl : HoleList cfg b got m first l)
    (hks : l.map (mark m') = ks) : HoleList cfg b (Mirrors.keeps v) m first l where
  path := hl.path
  good a ha := by
    refine h.good (hl.good a ha) (h.behind (mark m' a) ?_)
    rw [← h.holes, ← hks]
    exact List.mem_map_of_mem ha
  sep := hl.sep

/-- **A further fragment**: the bucket is that of the image still. -/
theorem Mirrors.add {fb' : FragBucket} (h : Mirrors cfg fb D ks got F v) (hl : Looked cfg ip) (hn : hdrLen ip ≤ length ip)
    (hgran : Granular cfg.maxFragSize ks)
    (hmore : moreFrags ip = true → fragOfs ip + (dataLength ip).toNat < cfg.maxFragSize ∧
      NotWithin (fragOfs ip) (fragOfs ip + (dataLength ip).toNat) ks)
    (hm : ∀ p, (v.Meets ip ∧ v.place + fragOfs ip ≤ p ∧ p < v.place + fragOfs ip + (dataLength ip).toNat ∨
        ∀ a, Good cfg (Mirrors.keeps v) a → NotIn p a) →
      fb'.mem p = if v.Meets ip ∧ v.place + fragOfs ip ≤ p ∧ p < v.place + fragOfs ip + (dataLength ip).toNat then
          ip (hdrLen ip + (p - (v.place + fragOfs ip)))
        else lengthened fb.mem ip (fragOfs ip) (moreFrags ip) p)
    (hkey : fb'.key = fb.key) :
    Mirrors cfg fb' D (v.add ip).holes
      (got ++ if v.Meets ip then [(v.place + fragOfs ip, (dataLength ip).toNat)] else []) (F ++ [ip]) (v.add ip) := by
  have hh : sizeofHeader ≤ hdrLen ip := (of_decide_eq_true hl.1).2.1
  have hlong := h.long
  obtain ⟨hheader, hdata⟩ := h.bytes hm
  constructor
  · rw [List.map_append, List.map_singleton, replay_append, h.replayed]
    exact congrArg some (Image.add_trim hh hn)
  · exact h.place
  · exact hlong
  · rfl
  · rw [h.got]
    rfl
  · intro k hk
    rcases mem_leftOver hk with ⟨e, he, hp⟩ | ⟨hp, -⟩
    · rw [hp]
      exact h.behind e (mem_of_mem_stays he)
    · rw [hp]
      show v.place ≤ _
      omega
  · exact hheader
  · exact hdata
  · rw [hkey, ← h.key]
    unfold sizeofHeader at hlong
    exact fragKey_congr fun i h4 h20 _ _ _ _ => Image.add_header (by unfold sizeofHeader at h20; omega) (by omega) (by omega)
  · unfold sizeofHeader at hlong
    have hsame : hdrLen (v.add ip).bytes = hdrLen v.bytes :=
      hdrLen_congr (Image.add_header (by omega) (by decide) (by decide))
    exact hsame.trans h.hdr
  · intro x hx hlast
    rw [List.map_append, List.map_singleton] at hlast
    have hself := hlast (pieceOf ip) (List.mem_append_right _ (List.mem_singleton_self _))
    rcases h.missing x hx fun p hp => hlast p (List.mem_append_left _ hp) with ⟨g, hg, hcov⟩ | hmiss
    · exact .inl ⟨g, List.mem_append_left _ hg, hcov⟩
    rw [← h.holes] at hmiss
    have hnext := misses_of_piece (N := v.place + fragOfs ip + (dataLength ip).toNat + 1) (q := pieceOf ip) hgran
      fragOfs_mod (fun hm => ⟨(fin_of_looked hl hn).2 hm, hmore hm⟩) hx hself hmiss
    rcases hnext with ⟨ht, hlo, hhi⟩ | hleft
    · rw [h.holes] at ht
      refine .inl ⟨(v.place + fragOfs ip, (dataLength ip).toNat), List.mem_append_right _ ?_, ?_, ?_⟩
      · rw [if_pos (show v.Meets ip from ht)]
        exact List.mem_singleton_self _
      · exact Nat.add_le_add_left hlo _
      · unfold pieceOf Piece.fin at hhi
        dsimp only at hhi ⊢
        show v.place + x < _
        omega
    · rw [h.holes] at hleft
      exact .inr hleft

/-- **No hole is left**: the bytes are those that the fragments make. -/
theorem Mirrors.assembled (h : Mirrors cfg fb D [] got F v) (hlast : ∃ p ∈ F.map pieceOf, p.more = false)
    (htotal : ∀ p ∈ F.map pieceOf, p.more = false → length fb.mem ≤ hdrLen fb.mem + p.fin ∧ p.fin ≤ cfg.maxFragSize) :
    bytesOf (finishHeader fb.mem) = assembled cfg (F.map bytesOf) := by
  have hlong := h.long
  unfold sizeofHeader at hlong
  have hlen : length v.bytes = length fb.mem :=
    (length_congr (h.header 2 (by omega)) (h.header 3 (by omega))).symm
  have hhdr : hdrLen fb.mem = v.place := (hdrLen_congr (h.header 0 (by omega))).trans h.hdr
  have hsame : ∀ i < length fb.mem, fb.mem i = v.bytes i := by
    intro i hi
    rcases Nat.lt_or_ge i v.place with hlt | hge
    · exact h.header i hlt
    obtain ⟨p, hp, hpm⟩ := hlast
    have hbelow : ∀ e ∈ F.map pieceOf, e.more = false → i - v.place < e.fin := fun e he hem => by
      have := (htotal e he hem).1
      omega
    have hmax := (htotal p hp hpm).2
    have hend := hbelow p hp hpm
    rcases h.missing (i - v.place) (by omega) hbelow with ⟨g, hg, hlo, hhi⟩ | ⟨k, hk, -⟩
    · exact h.data g hg i (by omega) (by omega)
    · rw [← h.holes] at hk
      exact absurd hk List.not_mem_nil
  have hfinish : length (finishHeader v.bytes) = length (finishHeader fb.mem) :=
    length_congr (finishHeader_congr (fun j hj => (h.header j (Nat.lt_of_lt_of_le hj h.long)).symm) (h.header 2 (by omega)).symm)
      (finishHeader_congr (fun j hj => (h.header j (Nat.lt_of_lt_of_le hj h.long)).symm) (h.header 3 (by omega)).symm)
  have hfinlen : length (finishHeader fb.mem) = length fb.mem :=
    length_congr (finishHeader_of_lt (by decide)) (finishHeader_of_lt (by decide))
  have htrim : (F.map bytesOf).map ofBytes = F.map trim := List.map_map
  unfold Frag.assembled
  rw [htrim, h.replayed]
  show _ = bytesOf (finishHeader v.bytes)
  unfold bytesOf
  rw [hfinish]
  refine Mem.slice_congr fun i hi => ?_
  rw [Nat.zero_add]
  rw [hfinlen] at hi
  exact finishHeader_congr (fun j hj => h.header j (Nat.lt_of_lt_of_le hj h.long)) (hsame i hi)

/-- The checksum and the flags are not part of the key. -/
theorem fragKey_finishHeader : fragKey (finishHeader m) = fragKey m := by
  refine fragKey_congr fun i h4 _ h6 h7 h10 h11 => ?_
  have put_two {x : ℕ} {u w : Byte} {m : ℕ → Byte} (h : i ≠ x) (h' : i ≠ x + 1) : Mem.put m x [u, w] i = m i := by
    rcases Nat.lt_or_ge i x with hlt | hge
    · exact Mem.put_of_lt hlt
    · exact Mem.put_of_ge (by simp only [List.length_cons, List.length_nil]; omega)
  unfold finishHeader
  rw [put_two h10 h11, put_two h10 h11, put_two h6 h7]

/-- The key is in the header of the bucket. -/
theorem Mirrors.fragKey_eq (h : Mirrors cfg fb D ks got F v) : fragKey fb.mem = fb.key := by
  have hlong := h.long
  rw [← h.key]
  exact fragKey_congr fun i _ hi _ _ _ _ => h.header i (by omega)

/-! ## Events -/

/-- The bucket `b` of the state is that of the image. -/
def Mirrored (cfg : Config) (s : State) (b : Bucket) (got : Got) (F : List Packet) : Prop :=
  ∃ v, Mirrors cfg (s.bucket b) (s.ctrl b 0).dataOffset (s.marks cfg b 0) got F v

theorem Mirrored.same (h : Mirrored cfg s b got F) (hst : SameAccount s t b) : Mirrored cfg t b got F := by
  obtain ⟨v, h⟩ := h
  obtain ⟨⟨hmem, hfirst⟩, hkey, hofs⟩ := hst
  have hmarks : t.marks cfg b 0 = s.marks cfg b 0 := by rw [State.marks, State.marks, hmem, hfirst]
  refine ⟨v, ?_⟩
  rw [hmarks, hofs]
  refine ⟨h.replayed, h.place, h.long, h.holes, h.got, h.behind, ?_, ?_, h.key.trans hkey.symm, h.hdr, h.missing⟩
  · rw [hmem]
    exact h.header
  · rw [hmem]
    exact h.data

/-- The invariant. -/
structure Isolated (cfg : Config) (z : Traced) : Prop where
  accounted : Accounted cfg z
  mirrors : ∀ b, (z.state.bucket b).used = true → Mirrored cfg z.state b (z.tracked.got b) (z.fragments b)

theorem Isolated.init : Isolated cfg {} where
  accounted := Accounted.init
  mirrors _ h := absurd h Bool.false_ne_true

/-- A call that returns what its fragments make, and leaves the others as theirs make them. -/
structure Separate (cfg : Config) (g : Bucket → Got) (P : Bucket → List Packet) (c : Call) : Prop where
  returned : ∀ b, c.result = .reassembled b → fragKey (c.state.bucket b).mem = (c.state.bucket b).key ∧
    bytesOf (c.state.bucket b).mem = assembled cfg ((P b).map bytesOf)
  mirrors : ∀ b, ((c.after cfg).bucket b).used = true → Mirrored cfg (c.after cfg) b (g b ++ payloads b c.writes) (P b)

/-- A bucket that a call leaves alone. -/
theorem Isolated.keep {ws : List Write} {P : List Packet} (h : Isolated cfg z) (hst : SameAccount z.state t b)
    (hused : (t.bucket b).used = (z.state.bucket b).used) (hw : payloads b ws = []) (hP : P = z.fragments b)
    (hb : (t.bucket b).used = true) : Mirrored cfg t b (z.tracked.since b ++ payloads b ws) P := by
  have hu : (z.state.bucket b).used = true := hused.symm.trans hb
  have hsince : z.tracked.since b = z.tracked.got b := Tracked.since_of_used hu
  rw [hw, List.append_nil, hsince, hP]
  exact (h.mirrors b hu).same hst

/-- The first fragment of a datagram. -/
theorem Isolated.take (h : Isolated cfg z) (hu : ¬ (z.state.bucket b).used = true) (hl : Looked cfg ip)
    (hn : hdrLen ip ≤ length ip) (hf : cfg.sizeofHuge ≤ cfg.fuel) (hfit : TakeFits cfg ip (fragOfs ip) (moreFrags ip))
    (ho : fragOfs ip = 0) (hmtu : length ip ≤ cfg.mtu) (hrecv : receiver cfg z.state pad ip = some b)
    (hc : setupFirstFrag cfg now z.state b ip (fragOfs ip) (moreFrags ip) = some c) :
    Separate cfg z.tracked.since (z.receive cfg pad ip) c := by
  have hh : sizeofHeader ≤ hdrLen ip := (of_decide_eq_true hl.1).2.1
  have hmore : moreFrags ip = true := by
    by_contra hm
    exact hl.2.1 ⟨ho, hm⟩
  rw [ho, hmore] at hfit hc
  have htaken := setupFirstFrag_taken (h.accounted.sound.kept.vacant hu) hn hc
  have hwrites : c.writes = (setupOfs0 cfg b (z.state.bucket b).mem ip).writes := htaken.writes
  have hafter : c.after cfg = c.state := by rw [Call.after, htaken.result]
  refine ⟨fun d hd => (by cases htaken.result.symm.trans hd), fun d hd => ?_⟩
  rw [hafter] at hd ⊢
  by_cases hdb : d = b
  · subst hdb
    have hgot : z.tracked.since d = [] := Tracked.since_of_free hu
    have hsince : z.since d = [] := if_neg hu
    rw [receive_self hrecv, hsince, hgot]
    exact ⟨_, htaken.mirrors hh hn hmtu hfit hf⟩
  · refine h.keep (.of_eq (htaken.other d hdb)) (congrArg FragBucket.used (htaken.other d hdb).1) ?_
      (receive_other hrecv hdb) hd
    rw [hwrites]
    simp [setupOfs0, payloads, Ne.symm hdb]

/-- A fragment of a known datagram. -/
theorem Isolated.add (h : Isolated cfg z) (hu : (z.state.bucket b).used = true) (hl : Looked cfg ip)
    (hmine : fragKey ip = (z.state.bucket b).key) (hn : hdrLen ip ≤ length ip) (hf : cfg.sizeofHuge ≤ cfg.fuel)
    (hfit : AddFits cfg (z.tracked.got b) (z.state.ctrl b 0).dataOffset (fragOfs ip) (dataLength ip).toNat
      (z.state.marks cfg b 0)) (hpiece : PieceFits cfg z b ip) (hrecv : receiver cfg z.state pad ip = some b)
    (hc : addFragment cfg z.state b 0 ip (fragOfs ip) (moreFrags ip) = some c) :
    Separate cfg z.tracked.since (z.receive cfg pad ip) c := by
  obtain ⟨v, hv⟩ := h.mirrors b hu
  obtain ⟨l, hne, hlist⟩ := h.accounted.sound.holes b hu
  have hlist : HoleList cfg b (z.tracked.got b) (z.state.bucket b).mem (z.state.ctrl b 0).holeFirst l := hlist
  have hmarks : l.map (mark (z.state.bucket b).mem) = z.state.marks cfg b 0 := by
    rw [State.marks, hlist.records_eq (hlist.length_le.trans hf)]
  have hkeeps := hv.addFits hfit
  rw [hv.place, hv.holes] at hkeeps
  obtain ⟨c', hc', hadd⟩ := addFragment_fits (moreFrags ip) hne hv.place (hv.holeList hlist hmarks) (hmarks.trans hv.holes)
    hkeeps hn fragOfs_le hf
  obtain rfl := Option.some.inj (hc'.symm.trans hc)
  have hgot : z.tracked.since b = z.tracked.got b := Tracked.since_of_used hu
  have hsince : z.since b = z.fragments b := if_pos hu
  have hcov := h.accounted.covers b hu
  have hlast : moreFrags ip = false → hdrLen ip ≤ hdrLen (z.state.bucket b).mem ∧
      ∀ p ∈ (z.fragments b).map pieceOf, p.more = false → fragOfs ip + (dataLength ip).toNat ≤ p.fin := by
    intro hm
    obtain ⟨hold, hends⟩ := hpiece.last hm
    rw [hsince] at hends
    exact ⟨hold, hends⟩
  have hbook : (c'.state.bucket b).used = true ∧ (c'.state.bucket b).key = (z.state.bucket b).key := by
    rcases addFragment_book hc with ⟨-, hbk⟩ | ⟨-, hbk, -⟩
    · exact ⟨(congrArg Book.used (hbk b)).trans hu, congrArg Book.key (hbk b)⟩
    · exact ⟨(congrArg Book.used hbk).trans hu, congrArg Book.key hbk⟩
  have hbrought : payloads b c'.writes =
      if v.Meets ip then [(v.place + fragOfs ip, (dataLength ip).toNat)] else [] := hadd.brought
  obtain ⟨l', m, hl', hleft, hbytes, hcase⟩ := hadd.left
  -- the bucket behind the fragment, before its header is finished
  have hnext (fb' : FragBucket) (hmem : fb'.mem = m) (hkey : fb'.key = (z.state.bucket b).key) :
      Mirrors cfg fb' (z.state.ctrl b 0).dataOffset (v.add ip).holes (z.tracked.got b ++ payloads b c'.writes)
        (z.fragments b ++ [ip]) (v.add ip) := by
    rw [hbrought]
    refine hv.add hl hn hcov.granular (fun hm => hpiece.more hm hu) ?_ hkey
    rw [hmem]
    exact hbytes
  rcases hcase with ⟨-, hr, hmem⟩ | ⟨rfl, hr, hmem⟩
  · have hafter : c'.after cfg = c'.state := by rw [Call.after, hr]
    refine ⟨fun d hd => (by cases hr.symm.trans hd), fun d hd => ?_⟩
    rw [hafter] at hd ⊢
    by_cases hdb : d = b
    · subst hdb
      have hafterMarks : c'.state.marks cfg d 0 = (v.add ip).holes := by
        rw [State.marks, hmem, hl'.records_eq (hl'.length_le.trans hf)]
        exact hleft
      rw [receive_self hrecv, hsince, hgot]
      refine ⟨v.add ip, ?_⟩
      rw [hafterMarks, hadd.offset_eq, ← hv.place]
      exact hnext _ hmem hbook.2
    · refine h.keep (.of_eq ⟨(hadd.other d hdb).1, (hadd.other d hdb).2.1⟩)
        (congrArg FragBucket.used (hadd.other d hdb).1) (hadd.other d hdb).2.2 (receive_other hrecv hdb) hd
  · have hafter : c'.after cfg = (ip4FreeFragment cfg c'.state b).2 := by rw [Call.after, hr]
    obtain ⟨-, hfree, hstay⟩ := ip4FreeFragment_book cfg hbook.1
    have hnil : (v.add ip).holes = [] := hleft.symm
    have hnext := hnext { c'.state.bucket b with mem := m } rfl hbook.2
    rw [hnil] at hnext
    refine ⟨fun d hd => ?_, fun d hd => ?_⟩
    · obtain rfl := Result.reassembled.inj (hr.symm.trans hd)
      have hcomplete := (h.accounted.add hu hl hmine hn hf hfit hpiece hrecv hc).complete b hr
      obtain ⟨p, hp, -, hpm⟩ := hcomplete.last
      rw [receive_self hrecv, hsince] at hp ⊢
      rw [hmem]
      refine ⟨fragKey_finishHeader.trans hnext.fragKey_eq, ?_⟩
      refine hnext.assembled ⟨p, hp, hpm⟩ ?_
      rw [List.map_append, List.map_singleton]
      refine hcov.total_add hl hn hlast fun i hi => ?_
      have hlong := hv.long
      unfold sizeofHeader at hlong
      show m i = _
      rw [hbytes i (.inr (hv.notIn (.inl (by omega)))), if_neg fun hin => by omega]
    · rw [hafter] at hd ⊢
      by_cases hdb : d = b
      · subst hdb
        exact absurd (hd.symm.trans (congrArg Book.used hfree)) Bool.false_ne_true.symm
      · refine h.keep (SameAccount.free (.of_eq ⟨(hadd.other d hdb).1, (hadd.other d hdb).2.1⟩)) ?_
          (hadd.other d hdb).2.2 (receive_other hrecv hdb) hd
        exact (congrArg Book.used (hstay d hdb)).trans (congrArg FragBucket.used (hadd.other d hdb).1)

/-- **A packet that fits.** -/
theorem Isolated.call (h : Isolated cfg z) (hf : cfg.sizeofHuge ≤ cfg.fuel) (hfit : Fits cfg z.tracked pad ip)
    (hp : ∀ b, receiver cfg z.state pad ip = some b → PieceFits cfg z b ip)
    (hfirst : ∀ b, receiver cfg z.state pad ip = some b → ¬ (z.state.bucket b).used = true →
      fragOfs ip = 0 ∧ length ip ≤ cfg.mtu)
    (hc : handlerCall cfg now pad z.state ip = some c) : Separate cfg z.tracked.since (z.receive cfg pad ip) c := by
  rcases call_kinds h.accounted.sound.kept hfit hc with ⟨hrecv, x, r, hr, rfl⟩ | ⟨b, hrecv, hl, hn, hkind⟩
  · have hafter : Call.after cfg { state := z.state, result := r, dataLength := x } = z.state := by
      cases r with
      | reassembled b => exact absurd rfl (hr b)
      | whole => rfl
      | taken => rfl
    refine ⟨fun b hb => absurd hb (hr b), fun b hb => ?_⟩
    rw [hafter] at hb ⊢
    exact h.keep (.of_eq ⟨rfl, rfl⟩) rfl rfl (congrFun (receive_of_none hrecv) b) hb
  · rcases hkind with ⟨hu, hmine, hadd, hc⟩ | ⟨hu, htake, hc⟩
    · exact h.add hu hl hmine hn hf hadd (hp b hrecv) hrecv hc
    · obtain ⟨ho, hmtu⟩ := hfirst b hrecv hu
      exact h.take hu hl hn hf htake ho hmtu hrecv hc

/-- **An event that fits** keeps the law and the invariant. -/
theorem trace_isolated (hf : cfg.sizeofHuge ≤ cfg.fuel) {x : Option Traced} {ev : Event}
    (h : ∀ z ∈ x, Isolated cfg z) (hr : IsolationRule cfg x ev) :
    IsolationLaw cfg (assembled cfg) x ev ∧ ∀ z ∈ trace cfg x ev, Isolated cfg z := by
  have haccounted := (trace_accounted hf (fun z hz => (h z hz).accounted) hr.1).2
  cases x with
  | none => exact ⟨nofun, nofun⟩
  | some z =>
    have h := h z rfl
    cases ev with
    | packet now pad ip =>
      obtain ⟨hfit, hpiece⟩ := hr.1 z rfl
      have hfirst := hr.2 z rfl
      constructor
      · rintro y ⟨⟩ c b hc hb
        obtain ⟨hkey, hbytes⟩ := (h.call hf hfit hpiece hfirst hc).returned b hb
        exact ⟨congrArg FragKey.source hkey, congrArg FragKey.destin hkey, congrArg FragKey.proto hkey, hbytes⟩
      · intro u hu
        refine ⟨haccounted u hu, ?_⟩
        obtain ⟨y, hy, rfl⟩ := Option.map_eq_some_iff.mp hu
        obtain ⟨c, hc, rfl⟩ := Option.map_eq_some_iff.mp hy
        exact (h.call hf hfit hpiece hfirst hc).mirrors
    | timeouts now =>
      refine ⟨by rintro y ⟨⟩; trivial, fun u hu => ⟨haccounted u hu, ?_⟩⟩
      obtain rfl := Option.some.inj hu
      intro b hb
      exact (h.mirrors b (used_of_timeouts h.accounted.sound.kept hb)).same SameAccount.timeouts

/-- **Reassembly keeps datagrams apart**: along every run of packets that fit, the packet that is returned has the
addresses of its key, and its bytes are a function of the fragments that came since its bucket was taken. -/
theorem reassembly_isolated (cfg : Config) (hfuel : cfg.sizeofHuge ≤ cfg.fuel) :
    ∃ f : List (List Byte) → List Byte, ∀ evs : List Event,
      Machine.Always (trace cfg) (IsolationRule cfg) (some {}) evs →
      Machine.Always (trace cfg) (IsolationLaw cfg f) (some {}) evs := by
  refine ⟨assembled cfg, fun evs hrule => ?_⟩
  refine Machine.always_of_invariant (I := fun x : Option Traced => ∀ z ∈ x, Isolated cfg z) ?_ evs ?_ hrule
  · exact fun x ev hx hr => (trace_isolated hfuel hx hr).symm
  · rintro z ⟨⟩
    exact Isolated.init

theorem reassembly_isolated_last : plainConfig.sizeofHuge ≤ plainConfig.fuel ∧
    ∃ f : List (List Byte) → List Byte,
      Machine.Always (trace plainConfig) (IsolationLaw plainConfig f) (some {}) lastBefore := by
  obtain ⟨f, hf⟩ := reassembly_isolated plainConfig (by decide)
  obtain ⟨h₀, h₁, h₂, -⟩ := lastBefore_fits
  refine ⟨by decide, f, hf _ ⟨⟨h₀, ?_⟩, ⟨h₁, ?_⟩, ⟨h₂, ?_⟩, trivial⟩⟩
  · rintro z ⟨⟩
    exact fun _ _ _ => ⟨by decide +kernel, by decide +kernel⟩
  · have hused : ∀ b, receiver plainConfig ((tracedBefore lastBefore 1).get last₁).state 0 (fragmentOf 28 [0, 6] [0x66, 0xC8]) =
        some b → (((tracedBefore lastBefore 1).get last₁).state.bucket b).used = true := by decide +kernel
    intro z hz
    obtain rfl := Option.get_of_mem last₁ hz
    exact fun b hb hu => absurd (hused b hb) hu
  · have hused : ∀ b, receiver plainConfig ((tracedBefore lastBefore 2).get last₂).state 0 (fragmentOf 44 [0x20, 3] [0x46, 0xBB]) =
        some b → (((tracedBefore lastBefore 2).get last₂).state.bucket b).used = true := by decide +kernel
    intro z hz
    obtain rfl := Option.get_of_mem last₂ hz
    exact fun b hb hu => absurd (hused b hb) hu

/-- The last 8 bytes of 32, then the first 24. -/
def lastFirst : List Event :=
  [.packet 1000 0 (fragmentOf 28 [0, 3] [0x66, 0xCB]), .packet 1000 0 (fragmentOf 44 [0x20, 0] [0x46, 0xBE])]

theorem lastFirst_isSome : (tracedBefore lastFirst 1).isSome = true := by decide +kernel

/-- **The claim fails**: the header is only written for a fragment with offset 0 that comes first. The packet has the
one that was in the buffer, here none, and not the addresses of its key. -/
theorem header_of_nobody :
    ¬ ∀ cfg : Config, ∃ f : List (List Byte) → List Byte, ∀ evs : List Event,
      Machine.Always (trace cfg) (IsolationLaw cfg f) (some {}) evs := by
  intro h
  obtain ⟨f, hf⟩ := h plainConfig
  obtain ⟨-, hlaw, -⟩ := hf lastFirst
  have hcall : (handlerCall plainConfig 1000 0 ((tracedBefore lastFirst 1).get lastFirst_isSome).state
      (fragmentOf 44 [0x20, 0] [0x46, 0xBE])).map (fun c => (c.result, be32 (c.state.bucket 0).mem 12, (c.state.bucket 0).key.source)) =
        some (.reassembled 0, 0, 0x0A000001) := by decide +kernel
  obtain ⟨c, hc, hx⟩ := Option.map_eq_some_iff.mp hcall
  simp only [Prod.mk.injEq] at hx
  obtain ⟨hr, hsource, hkey⟩ := hx
  have hsame := (hlaw _ (Option.get_mem lastFirst_isSome) c 0 hc hr).1
  rw [hsource, hkey] at hsame
  exact absurd hsame (by decide)

end Watt32.Frag
