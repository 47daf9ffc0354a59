import Watt32.Ip.Walk

/-!
# Reassembly in bounds

What `ip4_defragment` writes to a buffer: the data of fragments, and the records of holes between
them.

* `Tracked`: a state and what has come into each bucket since it was taken.
* `MemoryLaw`: a packet has no negative length, its data goes to the buffer, and each record that is
  written lies in the buffer away from the data that has come.
* `Fits`: a packet that keeps it: its header is not longer than it says, and the records it makes or
  leaves in the list do not meet data.
* **`memory_bounds`**: the law holds along every run of packets that fit.
-/

namespace Watt32.Frag

/-! ## What has come -/

/-- A state, and what has come into each bucket since it was taken. -/
structure Tracked where
  state : State := {}
  got : Bucket → Got := fun _ => []

/-- What has come into a bucket when a packet arrives: nothing before it is taken. -/
def Tracked.since (y : Tracked) (b : Bucket) : Got := if (y.state.bucket b).used then y.got b else []

/-- The data that a call writes to a bucket. -/
def payloads (b : Bucket) (ws : List Write) : Got :=
  ws.filterMap fun
    | .payload c a n => if c = b then some (a, n) else none
    | .hole _ _ => none

/-- An event, with what comes into the buckets. -/
def track (cfg : Config) (x : Option Tracked) (ev : Event) : Option Tracked :=
  x.bind fun y =>
    match ev with
    | .packet now pad ip => (handlerCall cfg now pad y.state ip).map fun c =>
        { state := c.after cfg, got := fun b => y.since b ++ payloads b c.writes }
    | .timeouts now => some { y with state := chkTimeoutFrags cfg now y.state }

/-- It is the event, as far as the state goes. -/
theorem track_state (cfg : Config) (x : Option Tracked) (ev : Event) :
    (track cfg x ev).map Tracked.state = step cfg (x.map Tracked.state) ev := by
  cases x with
  | none => rfl
  | some y =>
    cases ev with
    | packet now pad ip =>
      show ((handlerCall cfg now pad y.state ip).map _).map _ = (handlerCall cfg now pad y.state ip).map _
      rw [Option.map_map]
      rfl
    | timeouts now => rfl

/-- Data is written to the buffer, and records to good places, in the order of the writes. -/
def SafeWrites (cfg : Config) : (Bucket → Got) → List Write → Prop
  | _, [] => True
  | got, .payload b a n :: ws =>
    InData cfg a n ∧ SafeWrites cfg (Function.update got b (got b ++ [(a, n)])) ws
  | got, .hole b a :: ws => Good cfg (got b) a ∧ SafeWrites cfg got ws

/-- The law of the claim for an event. -/
def MemoryLaw (cfg : Config) (x : Option Tracked) (ev : Event) : Prop :=
  ∀ y ∈ x,
    match ev with
    | .packet now pad ip => ∃ c, handlerCall cfg now pad y.state ip = some c ∧
        (∀ n ∈ c.dataLength, 0 ≤ n) ∧ SafeWrites cfg y.since c.writes
    | .timeouts _ => True

/-! ## What fits -/

/-- The first fragment of a datagram: its record, or records, lie in the buffer away from its data and
from each other. -/
def TakeFits (cfg : Config) (ip : Packet) (offset : ℕ) (mf : Bool) : Prop :=
  let n := (dataLength ip).toNat
  let ofs := hdrLen ip
  if offset = 0 then InData cfg (min (length ip) cfg.mtu + 1) sizeofHole
  else InData cfg (ofs + offset) n ∧ InData cfg ofs sizeofHole ∧ Apart ofs sizeofHole (ofs + offset) n ∧
    (mf = true → InData cfg (ofs + n + 1) sizeofHole ∧ Apart (ofs + n + 1) sizeofHole (ofs + offset) n ∧
      Sep ofs (ofs + n + 1))

/-- A further fragment, for the holes `ks` of the list: its data lies in the buffer and meets no record
that stays, and the record for a rest has a place. -/
structure AddFits (cfg : Config) (got : Got) (D offset n : ℕ) (ks : List Mark) : Prop where
  data : (∃ k ∈ ks, k.Touches offset (offset + n)) → InData cfg (D + offset) n
  clear : (∃ k ∈ ks, k.Touches offset (offset + n)) →
    ∀ k ∈ stays offset (offset + n) false ks, Apart k.place sizeofHole (D + offset) n
  rest : ∀ k ∈ ks, k.LeavesRest offset (offset + n) → Good cfg got (D + offset + n + 1) ∧
    ∀ e ∈ ks, e.place ≠ k.place → Sep (D + offset + n + 1) e.place ∧ ¬ e.LeavesRest offset (offset + n)
  stay : ∀ k ∈ stays offset (offset + n) false ks, k.LeavesRest offset (offset + n) →
    Sep (D + offset + n + 1) k.place

/-- The holes of a bucket, in the order of the list. -/
def State.marks (cfg : Config) (s : State) (b : Bucket) (i : ℕ) : List Mark :=
  (records cfg b (s.bucket b).mem cfg.fuel (s.ctrl b i).holeFirst).map (mark (s.bucket b).mem)

/-- The packet fits: when its length is computed, its header is not longer than it says, and when it is
looked at it fits as a first or a further fragment. -/
def Fits (cfg : Config) (y : Tracked) (pad : Byte) (ip : Packet) : Prop :=
  let m := matchFrag cfg y.state pad ip
  Measured cfg y.state pad ip → hdrLen ip ≤ length ip ∧ (FragOk cfg ip (fragOfs ip) (moreFrags ip) →
    (∀ b i, m.bucket = some b → m.slot = some i →
      AddFits cfg (y.got b) (y.state.ctrl b i).dataOffset (fragOfs ip) (dataLength ip).toNat
        (y.state.marks cfg b i)) ∧
    (m.bucket = none → m.freeBucket ≠ none → TakeFits cfg ip (fragOfs ip) (moreFrags ip)))

/-- The rule for an event. -/
def MemoryRule (cfg : Config) (x : Option Tracked) (ev : Event) : Prop :=
  ∀ y ∈ x,
    match ev with
    | .packet _ pad ip => Fits cfg y pad ip
    | .timeouts _ => True

/-! ## The invariant -/

/-- Buckets are held or vacant, and a held one has a list of holes. -/
structure Sound (cfg : Config) (y : Tracked) : Prop where
  kept : Kept cfg y.state
  holes : ∀ b, (y.state.bucket b).used = true → ∃ l, l ≠ [] ∧
    HoleList cfg b (y.got b) (y.state.bucket b).mem (y.state.ctrl b 0).holeFirst l

variable {cfg : Config} {y : Tracked} {s t : State} {now : Dword} {pad : Byte} {ip : Packet} {offset n a D : ℕ}
  {mf : Bool} {b : Bucket} {m : ℕ → Byte} {l : List ℕ} {ks : List Mark} {got : Got} {first : Dword}

theorem Sound.init : Sound cfg {} where
  kept _ := .inr ⟨rfl, rfl, fun _ _ => rfl⟩
  holes _ h := absurd h Bool.false_ne_true

/-- What of `t` has changed since `s` does not matter to the holes of `b`. -/
def SameHoles (s t : State) (b : Bucket) : Prop :=
  (t.bucket b).mem = (s.bucket b).mem ∧ (t.ctrl b 0).holeFirst = (s.ctrl b 0).holeFirst

/-- The bytes of a header are not those of a record. -/
theorem readHole_putLength {x : ℤ} (h : InData cfg a sizeofHole) : readHole (putLength m x) a = readHole m a := by
  have h := (h.resolve_left (by decide)).1
  unfold sizeofHeader at h
  refine readHole_congr fun i _ => Mem.put_of_ge ?_
  simp only [bytes16, List.length_cons, List.length_nil]
  omega

theorem readHole_blit {src : ℕ → Byte} {x c : ℕ} (h : Apart c sizeofHole a n) :
    readHole (Mem.blit m a src x n) c = readHole m c := by
  refine readHole_congr fun i hi => ?_
  rcases h with h | h | h | h
  · exact absurd h (by decide)
  · rw [h, Mem.blit_zero]
  · exact Mem.blit_of_lt (by omega)
  · exact Mem.blit_of_ge (by omega)

/-- Data is written away from all records. -/
theorem HoleList.blit {src : ℕ → Byte} {x : ℕ} (h : HoleList cfg b got m first l)
    (hl : ∀ c ∈ l, Apart c sizeofHole a n) :
    HoleList cfg b (got ++ [(a, n)]) (Mem.blit m a src x n) first l where
  path := h.path.congr fun c hc => congrArg Hole.next (readHole_blit (hl c hc))
  good c hc := by
    refine ⟨(h.good c hc).1, fun x hx => ?_⟩
    rcases List.mem_append.mp hx with hx | hx
    · exact (h.good c hc).2 x hx
    · rw [List.mem_singleton.mp hx]
      exact hl c hc
  sep := h.sep

theorem safeWrites_holes {g : Bucket → Got} {ws : List ℕ} {rest : List Write}
    (h : ∀ a ∈ ws, Good cfg (g b) a) (hr : SafeWrites cfg g rest) :
    SafeWrites cfg g (ws.map (Write.hole b) ++ rest) := by
  induction ws with
  | nil => exact hr
  | cons a ws ih =>
    exact ⟨h a List.mem_cons_self, ih fun c hc => h c (List.mem_cons_of_mem _ hc)⟩

theorem payloads_holes {d : Bucket} {ws : List ℕ} {rest : List Write} :
    payloads d (ws.map (Write.hole b) ++ rest) = payloads d rest := by
  simp [payloads, List.filterMap_append, List.filterMap_map]

/-! ## A further fragment -/

theorem restPlace_eq : restPlace D ((offset : ℤ) + n) = D + offset + n + 1 := by
  unfold restPlace; omega

/-- The walk over the list of a bucket, for a fragment that fits. -/
theorem walk_fits {m' : ℕ → Byte} (h : HoleList cfg b got m first (a :: l))
    (hm : ∀ c, InData cfg c sizeofHole → readHole m' c = readHole m c)
    (hfit : AddFits cfg got D offset n ((a :: l).map (mark m))) (ho : offset ≤ 2 ^ 31)
    (hf : cfg.sizeofHuge ≤ cfg.fuel) :
    ∃ w l', walk cfg b D offset (offset + n) cfg.fuel { mem := m', first := first, hole := a } = some w ∧
      HoleList cfg b got w.mem w.first l' ∧
      l'.map (mark w.mem) = leftOver (D + offset + n + 1) offset (offset + n) false ((a :: l).map (mark m)) ∧
      (∀ c ∈ w.writes, Good cfg got c) ∧
      (w.gotHole = true ↔ ∃ k ∈ (a :: l).map (mark m), k.Touches offset (offset + n)) := by
  have hread : ∀ c ∈ a :: l, readHole m' c = readHole m c := fun c hc => hm c (h.good c hc).1
  have hmem : ∀ c ∈ a :: l, mark m c ∈ (a :: l).map (mark m) := fun c hc => List.mem_map_of_mem hc
  have hinv : WalkInv cfg b got m D offset (offset + n) { mem := m', first := first, hole := a } [] (a :: l) false :=
    { list := h.congr fun c hc => congrArg Hole.next (hread c hc)
      same := hread
      fresh := fun _ => rfl
      dead := fun hs => absurd hs Bool.false_ne_true
      rest := fun c hc hr => by
        obtain ⟨hg, hs⟩ := hfit.rest _ (hmem c hc) hr
        rw [restPlace_eq]
        exact ⟨hg, fun e he hne => (hs _ (hmem e he) hne).1, fun d hd => absurd hd (Option.some_ne_none d).symm⟩
      one := fun c hc e he hr hr' => by
        by_contra hne
        exact ((hfit.rest _ (hmem c hc) hr).2 _ (hmem e he) (Ne.symm hne)).2 hr'
      stay := fun k hk hr => by
        rw [restPlace_eq]
        exact hfit.stay k hk hr
      writes := fun c hc => absurd hc List.not_mem_nil }
  have hfuel : l.length < cfg.fuel := by
    have := h.length_le
    rw [List.length_cons] at this
    omega
  obtain ⟨w, l', hw, hl', hmarks, hwr, hgot⟩ := hinv.walk rfl (by omega) (by exact_mod_cast ho) (by omega) hfuel
  rw [restPlace_eq] at hmarks
  exact ⟨w, l', hw, hl', hmarks, hwr, by simpa using hgot⟩

/-- The records that are left are away from the data. -/
theorem AddFits.apart (hfit : AddFits cfg got D offset n ks) (ht : ∃ k ∈ ks, k.Touches offset (offset + n))
    {k : Mark} (hk : k ∈ leftOver (D + offset + n + 1) offset (offset + n) false ks) :
    Apart k.place sizeofHole (D + offset) n := by
  rcases mem_leftOver hk with ⟨e, he, hp⟩ | ⟨hp, -⟩
  · rw [hp]
    exact hfit.clear ht e he
  · rw [hp]
    exact .inr (.inr (.inr (by omega)))

/-- The bytes of a buffer before the walk: the last fragment tells the length. -/
def lengthened (m : ℕ → Byte) (ip : Packet) (offset : ℕ) (mf : Bool) : ℕ → Byte :=
  if mf then m else putLength m (dataEnd ip offset + hdrLen ip)

/-- The data goes to the buffer behind the walk, when the fragment met a hole. -/
def brought (b : Bucket) (w : Walk) (a n : ℕ) : List Write := if w.gotHole then [.payload b a n] else []

/-- The bytes of the buffer then. -/
def Walk.arrived (w : Walk) (ip : Packet) (a n : ℕ) : ℕ → Byte :=
  if w.gotHole then Mem.blit w.mem a ip (hdrLen ip) n else w.mem

theorem payloads_brought {w : Walk} (d : Bucket) : payloads d (w.writes.map (Write.hole b) ++ brought b w a n) =
    if d = b ∧ w.gotHole = true then [(a, n)] else [] := by
  rw [payloads_holes, brought]
  by_cases hg : w.gotHole = true <;> by_cases hd : d = b <;> simp [payloads, hg, hd, Ne.symm]

/-- Records that are away from the data stay. -/
theorem HoleList.arrived (ip : Packet) {w : Walk} (h : HoleList cfg b got w.mem w.first l)
    (ha : w.gotHole = true → ∀ c ∈ l, Apart c sizeofHole a n) :
    HoleList cfg b (got ++ if b = b ∧ w.gotHole = true then [(a, n)] else []) (w.arrived ip a n) w.first l ∧
      l.map (mark (w.arrived ip a n)) = l.map (mark w.mem) := by
  unfold Walk.arrived
  by_cases hg : w.gotHole = true
  · rw [if_pos hg, if_pos ⟨rfl, hg⟩]
    exact ⟨h.blit (ha hg), List.map_congr_left fun c hc => mark_congr (readHole_blit (ha hg c hc))⟩
  · rw [if_neg hg, if_neg (not_and_of_not_right _ hg), List.append_nil]
    exact ⟨h, rfl⟩

theorem Walk.arrived_apply {w : Walk} (p : ℕ) : w.arrived ip a n p =
    if w.gotHole = true ∧ a ≤ p ∧ p < a + n then ip (hdrLen ip + (p - a)) else w.mem p := by
  unfold arrived
  by_cases hg : w.gotHole = true
  · rw [if_pos hg, Mem.blit]
    exact if_congr (by simp [hg]) rfl rfl
  · rw [if_neg hg, if_neg fun h => hg h.1]

/-- The call behind the walk. -/
def walked (s : State) (b : Bucket) (i : ℕ) (ip : Packet) (offset a n : ℕ) (w : Walk) : Call where
  state := (s.setCtrl b i { s.ctrl b i with holeFirst := w.first }).setBucket b
    { s.bucket b with
      gotOfs0 := (s.bucket b).gotOfs0 || offset = 0
      active := if w.first = 0 then (s.bucket b).active - 1 else (s.bucket b).active
      mem := if w.first = 0 then finishHeader (w.arrived ip a n) else w.arrived ip a n }
  result := if w.first = 0 then .reassembled b else .taken
  dataLength := dataLength ip
  writes := w.writes.map (Write.hole b) ++ brought b w a n

/-- What a call for a further fragment comes to, in the bucket `b` with the holes `ks`; `D` is the
place of its data. -/
structure Added (cfg : Config) (s : State) (b : Bucket) (i : ℕ) (ip : Packet) (offset : ℕ) (mf : Bool)
    (got : Got) (D : ℕ) (ks : List Mark) (c : Call) : Prop where
  length : c.dataLength = some (dataLength ip)
  safe : ∀ g : Bucket → Got, g b = got → SafeWrites cfg g c.writes
  other : ∀ d, d ≠ b → c.state.bucket d = s.bucket d ∧ c.state.ctrl d = s.ctrl d ∧ payloads d c.writes = []
  offset_eq : (c.state.ctrl b i).dataOffset = D
  brought : payloads b c.writes = if ∃ k ∈ ks, k.Touches offset (offset + (dataLength ip).toNat) then
    [(D + offset, (dataLength ip).toNat)] else []
  left : ∃ l m, HoleList cfg b (got ++ payloads b c.writes) m (c.state.ctrl b i).holeFirst l ∧
    l.map (mark m) = leftOver (D + offset + (dataLength ip).toNat + 1) offset
      (offset + (dataLength ip).toNat) false ks ∧
    (∀ p, ((∃ k ∈ ks, k.Touches offset (offset + (dataLength ip).toNat)) ∧ D + offset ≤ p ∧
        p < D + offset + (dataLength ip).toNat ∨ ∀ a, Good cfg got a → NotIn p a) →
      m p = if (∃ k ∈ ks, k.Touches offset (offset + (dataLength ip).toNat)) ∧ D + offset ≤ p ∧
          p < D + offset + (dataLength ip).toNat then
        ip (hdrLen ip + (p - (D + offset)))
      else lengthened (s.bucket b).mem ip offset mf p) ∧
    (l ≠ [] ∧ c.result = .taken ∧ (c.state.bucket b).mem = m ∨
      l = [] ∧ c.result = .reassembled b ∧ (c.state.bucket b).mem = finishHeader m)

variable (mf) in
/-- A further fragment that fits. -/
theorem addFragment_fits {i : ℕ} (hne : l ≠ []) (hD : (s.ctrl b i).dataOffset = D)
    (h : HoleList cfg b got (s.bucket b).mem (s.ctrl b i).holeFirst l)
    (hks : l.map (mark (s.bucket b).mem) = ks) (hfit : AddFits cfg got D offset (dataLength ip).toNat ks)
    (hn : hdrLen ip ≤ length ip) (ho : offset ≤ 2 ^ 31) (hf : cfg.sizeofHuge ≤ cfg.fuel) :
    ∃ c, addFragment cfg s b i ip offset mf = some c ∧ Added cfg s b i ip offset mf got D ks c := by
  obtain ⟨a, l, rfl⟩ := List.exists_cons_of_ne_nil hne
  subst hks hD
  have hdl : dataLength ip = ((dataLength ip).toNat : ℤ) := by
    have : 0 ≤ dataLength ip := by unfold dataLength; omega
    omega
  have hderef : cfg.deref b (s.ctrl b i).holeFirst = some a := by
    rw [h.path.1]
    exact deref_ptr (h.good a List.mem_cons_self).1
  have hm : ∀ c, InData cfg c sizeofHole →
      readHole (lengthened (s.bucket b).mem ip offset mf) c = readHole (s.bucket b).mem c := by
    intro c hc
    unfold lengthened
    split_ifs
    · rfl
    · exact readHole_putLength hc
  obtain ⟨w, l', hw, hl', hmarks, hwr, hgot⟩ := walk_fits h hm hfit ho hf
  generalize hks : (a :: l).map (mark (s.bucket b).mem) = ks at *
  have hapart : w.gotHole = true → ∀ c ∈ l', Apart c sizeofHole ((s.ctrl b i).dataOffset + offset) (dataLength ip).toNat := by
    intro hg c hc
    refine hfit.apart (hgot.mp hg) (k := mark w.mem c) ?_
    rw [← hmarks]
    exact List.mem_map_of_mem hc
  have hsafe : ∀ g : Bucket → Got, g b = got → SafeWrites cfg g (w.writes.map (Write.hole b) ++
      brought b w ((s.ctrl b i).dataOffset + offset) (dataLength ip).toNat) := by
    intro g hg
    refine safeWrites_holes (by rw [hg]; exact hwr) ?_
    rw [brought]
    split_ifs with hgh
    · exact ⟨hfit.data (hgot.mp hgh), trivial⟩
    · trivial
  have hbytes : ∀ p, ((∃ k ∈ ks, k.Touches offset (offset + (dataLength ip).toNat)) ∧ (s.ctrl b i).dataOffset + offset ≤ p ∧
        p < (s.ctrl b i).dataOffset + offset + (dataLength ip).toNat ∨ ∀ a, Good cfg got a → NotIn p a) →
      w.arrived ip ((s.ctrl b i).dataOffset + offset) (dataLength ip).toNat p =
        if (∃ k ∈ ks, k.Touches offset (offset + (dataLength ip).toNat)) ∧ (s.ctrl b i).dataOffset + offset ≤ p ∧
            p < (s.ctrl b i).dataOffset + offset + (dataLength ip).toNat then ip (hdrLen ip + (p - ((s.ctrl b i).dataOffset + offset)))
        else lengthened (s.bucket b).mem ip offset mf p := by
    intro p hp
    rw [Walk.arrived_apply]
    rcases hp with hin | hp
    · rw [if_pos hin, if_pos ⟨hgot.mpr hin.1, hin.2⟩]
    · rw [(walk_of_notIn hw fun c hc => hp c (hwr c hc)).2]
      exact if_congr (by rw [hgot]) rfl rfl
  obtain ⟨hlist, hmarks'⟩ := hl'.arrived ip hapart
  have hcall : addFragment cfg s b i ip offset mf =
      some (walked s b i ip offset ((s.ctrl b i).dataOffset + offset) (dataLength ip).toNat w) := by
    rw [addFragment, hderef]
    simp only [dataEnd, ← hdl, lengthened] at hw ⊢
    simp only [hw]
    rw [if_neg fun hneg => by omega]
    by_cases h0 : w.first = 0 <;> simp only [walked, h0, if_true, if_false, Walk.arrived, brought]
  have hpay := payloads_brought (b := b) (w := w) (a := (s.ctrl b i).dataOffset + offset) (n := (dataLength ip).toNat)
  refine ⟨_, hcall, rfl, hsafe, fun d hd => ⟨?_, ?_, ?_⟩, ?_, ?_, l', w.arrived ip ((s.ctrl b i).dataOffset + offset) (dataLength ip).toNat,
    ?_, hmarks'.trans hmarks, hbytes, ?_⟩
  · simp [walked, State.setBucket, State.setCtrl, hd]
  · simp [walked, State.setBucket, State.setCtrl, hd]
  · exact (hpay d).trans (if_neg fun h => hd h.1)
  · simp [walked, State.setBucket, State.setCtrl]
  · exact (hpay b).trans (if_congr (by rw [hgot]; simp) rfl rfl)
  · have hfirst : ((walked s b i ip offset ((s.ctrl b i).dataOffset + offset) (dataLength ip).toNat w).state.ctrl b i).holeFirst = w.first := by
      simp [walked, State.setBucket, State.setCtrl]
    rw [hfirst]
    exact (hpay b).symm ▸ hlist
  · have hmem : ((walked s b i ip offset ((s.ctrl b i).dataOffset + offset) (dataLength ip).toNat w).state.bucket b).mem =
        if w.first = 0 then finishHeader (w.arrived ip ((s.ctrl b i).dataOffset + offset) (dataLength ip).toNat)
        else w.arrived ip ((s.ctrl b i).dataOffset + offset) (dataLength ip).toNat := by
      simp only [walked, State.setBucket, Function.update_self]
    by_cases h0 : w.first = 0
    · refine .inr ⟨?_, if_pos h0, hmem.trans (if_pos h0)⟩
      cases l' with
      | nil => rfl
      | cons c l' =>
        have hc : w.first = ptr (cfg.hip b) c := hl'.path.1
        exact absurd (hc.symm.trans h0) (ptr_ne_zero (hl'.good c List.mem_cons_self).1)
    · refine .inl ⟨?_, if_neg h0, hmem.trans (if_neg h0)⟩
      rintro rfl
      exact h0 hl'.path

/-! ## The first fragment -/

/-- What the first fragment makes of the buffer of `b` keeps the law, and begins a list of holes. -/
structure Begun (cfg : Config) (b : Bucket) (set : Setup) : Prop where
  safe : ∀ g : Bucket → Got, g b = [] → SafeWrites cfg g set.writes
  other : ∀ d, d ≠ b → payloads d set.writes = []
  list : ∃ l, l ≠ [] ∧ HoleList cfg b (payloads b set.writes) set.mem (ptr (cfg.hip b) set.hole) l

/-- A place for a record beside the data of the first fragment. -/
theorem good_first (ha : InData cfg a sizeofHole) (h : Apart a sizeofHole D n) : Good cfg [(D, n)] a :=
  ⟨ha, fun x hx => by rw [List.mem_singleton.mp hx]; exact h⟩

theorem setupOfs0_begun (hn : sizeofHeader ≤ hdrLen ip) (hfit : TakeFits cfg ip 0 mf) :
    Begun cfg b (setupOfs0 cfg b m ip) := by
  have hfit : InData cfg (min (length ip) cfg.mtu + 1) sizeofHole := by
    unfold TakeFits at hfit
    rwa [if_pos rfl] at hfit
  have hdata : InData cfg (hdrLen ip) (min (length ip) cfg.mtu - hdrLen ip) := by
    have := (hfit.resolve_left (by decide)).2
    unfold InData
    omega
  have hgood : Good cfg [(hdrLen ip, min (length ip) cfg.mtu - hdrLen ip)] (min (length ip) cfg.mtu + 1) :=
    good_first hfit (by unfold Apart; omega)
  have hp : payloads b (setupOfs0 cfg b m ip).writes = [(hdrLen ip, min (length ip) cfg.mtu - hdrLen ip)] := by
    simp [setupOfs0, payloads]
  refine ⟨fun g hg => ⟨hdata, ?_, trivial⟩, fun d hd => ?_, [min (length ip) cfg.mtu + 1], by simp, ?_⟩
  · rw [Function.update_self, hg]
    exact hgood
  · simp [setupOfs0, payloads, Ne.symm hd]
  · rw [hp]
    refine ⟨⟨rfl, ?_⟩, by simpa using hgood, List.pairwise_singleton _ _⟩
    show (readHole (putNext _ _ 0) _).next = 0
    rw [readHole_putNext]

theorem setupLater_begun (ho : offset ≠ 0) (hfit : TakeFits cfg ip offset mf) :
    Begun cfg b (setupLater cfg b m ip offset mf) := by
  unfold TakeFits at hfit
  rw [if_neg ho] at hfit
  obtain ⟨hdata, hrec, hapart, hmf⟩ := hfit
  have hgood := good_first hrec hapart
  have hp : payloads b (setupLater cfg b m ip offset mf).writes =
      [(hdrLen ip + offset, (dataLength ip).toNat)] := by
    cases mf <;> simp [setupLater, payloads]
  cases mf with
  | true =>
    obtain ⟨hrec', hapart', hsep⟩ := hmf rfl
    have hgood' := good_first hrec' hapart'
    refine ⟨fun g hg => ⟨hdata, ?_, ?_, trivial⟩, fun d hd => ?_,
      [hdrLen ip, hdrLen ip + (dataLength ip).toNat + 1], by simp, ?_⟩
    · rw [Function.update_self, hg]
      exact hgood
    · rw [Function.update_self, hg]
      exact hgood'
    · simp [setupLater, payloads, Ne.symm hd]
    · rw [hp]
      refine ⟨⟨rfl, ?_, ?_⟩, by simpa using ⟨hgood, hgood'⟩, by simpa using hsep⟩
      · show (readHole (putNext (putEnd (putStart (putNext _ _ _) _ _) _ _) _ 0) _).next = _
        rw [readHole_putNext_of_sep hsep.symm, readHole_putEnd_of_sep hsep.symm,
          readHole_putStart_of_sep hsep.symm, readHole_putNext]
      · show (readHole (putNext _ _ 0) _).next = 0
        rw [readHole_putNext]
  | false =>
    refine ⟨fun g hg => ⟨hdata, ?_, trivial⟩, fun d hd => ?_, [hdrLen ip], by simp, ?_⟩
    · rw [Function.update_self, hg]
      exact hgood
    · simp [setupLater, payloads, Ne.symm hd]
    · rw [hp]
      refine ⟨⟨rfl, ?_⟩, by simpa using hgood, List.pairwise_singleton _ _⟩
      show (readHole (putLength (putNext _ _ 0) _) _).next = 0
      rw [readHole_putLength hrec, readHole_putNext]

variable (now) in
/-- A first fragment that fits. -/
theorem setupFirstFrag_fits (hv : Vacant cfg (book s b)) (hh : sizeofHeader ≤ hdrLen ip)
    (hn : hdrLen ip ≤ length ip) (hfit : TakeFits cfg ip offset mf) :
    ∃ c set, setupFirstFrag cfg now s b ip offset mf = some c ∧ Begun cfg b set ∧ c.result = .taken ∧
      c.dataLength = some (dataLength ip) ∧ c.writes = set.writes ∧ (c.state.bucket b).mem = set.mem ∧
      (c.state.ctrl b 0).holeFirst = ptr (cfg.hip b) set.hole ∧ ∀ d, d ≠ b → SameHoles s c.state d := by
  have hdl : ¬ (offset ≠ 0 ∧ dataLength ip < 0) := by
    unfold dataLength
    omega
  rw [setupFirstFrag, emptySlot_vacant hv]
  simp only [if_neg hdl]
  refine ⟨_, _, rfl, ?_, rfl, rfl, rfl, ?_, ?_, fun d hd => ?_⟩
  · by_cases ho : offset = 0
    · rw [if_pos ho]
      subst ho
      exact setupOfs0_begun hh hfit
    · rw [if_neg ho]
      exact setupLater_begun ho hfit
  · simp [State.setCtrl, State.setBucket]
  · simp [State.setCtrl]
  · simp [SameHoles, State.setCtrl, State.setBucket, hd]

/-! ## What is freed -/

theorem SameHoles.trans {r : State} (h : SameHoles s t b) (h' : SameHoles t r b) : SameHoles s r b :=
  ⟨h'.1.trans h.1, h'.2.trans h.2⟩

theorem ip4FreeFragment_same (d : Bucket) : SameHoles s (ip4FreeFragment cfg s b).2 d := by
  unfold ip4FreeFragment
  split_ifs with hu
  · by_cases hd : d = b
    · subst hd
      simp only [SameHoles, State.setBucket, Function.update_self, true_and]
      split_ifs <;> rfl
    · simp [SameHoles, State.setBucket, hd]
  · exact ⟨rfl, rfl⟩

theorem timeoutSlots_keep {P : State → Prop} (hfree : ∀ t b, P t → P (ip4FreeFragment cfg t b).2)
    (hsent : ∀ t l, P t → P { t with timexceed := l }) (k i : ℕ) (h : P s) :
    P (timeoutSlots cfg now b k i s).2 := by
  induction k generalizing i s with
  | zero => exact h
  | succ k ih =>
    rw [timeoutSlots]
    split_ifs
    · exact ih _ h
    · dsimp only
      split_ifs
      · exact hfree _ _ (hsent _ _ h)
      · exact ih _ (hfree _ _ (hsent _ _ h))
    · dsimp only
      split_ifs
      · exact hfree _ _ h
      · exact ih _ (hfree _ _ h)

/-- **A turn of the daemon** keeps what freeing a bucket, and telling of it, keep. -/
theorem timeoutBuckets_keep {P : State → Prop} {bs : List Bucket} (hfree : ∀ t b, P t → P (ip4FreeFragment cfg t b).2)
    (hsent : ∀ t l, P t → P { t with timexceed := l }) (h : P s) : P (timeoutBuckets cfg now bs s) := by
  induction bs generalizing s with
  | nil => exact h
  | cons b bs ih =>
    rw [timeoutBuckets]
    split_ifs with h0
    · exact ih h
    · have hs : P (timeoutSlots cfg now b cfg.maxFragments 0 s).2 := timeoutSlots_keep hfree hsent _ _ h
      generalize timeoutSlots cfg now b cfg.maxFragments 0 s = r at hs ⊢
      obtain ⟨done, t⟩ := r
      cases done with
      | true => exact hs
      | false => exact ih hs

theorem timeoutBuckets_same {bs : List Bucket} (d : Bucket) : SameHoles s (timeoutBuckets cfg now bs s) d :=
  timeoutBuckets_keep (P := fun t => SameHoles s t d) (fun _ _ h => h.trans (ip4FreeFragment_same d)) (fun _ _ h => h)
    ⟨rfl, rfl⟩

/-! ## Events -/

theorem HoleList.same (h : HoleList cfg b got (s.bucket b).mem (s.ctrl b 0).holeFirst l)
    (hst : SameHoles s t b) : HoleList cfg b got (t.bucket b).mem (t.ctrl b 0).holeFirst l := by
  rw [hst.1, hst.2]
  exact h

/-- A call that keeps the law and leaves a list in each used bucket. -/
structure Lawful (cfg : Config) (y : Tracked) (c : Call) : Prop where
  length : ∀ n ∈ c.dataLength, 0 ≤ n
  safe : SafeWrites cfg y.since c.writes
  holes : ∀ b, ((c.after cfg).bucket b).used = true → ∃ l, l ≠ [] ∧
    HoleList cfg b (y.since b ++ payloads b c.writes) ((c.after cfg).bucket b).mem
      ((c.after cfg).ctrl b 0).holeFirst l

theorem Tracked.since_of_used (h : (y.state.bucket b).used = true) : y.since b = y.got b := if_pos h

theorem Tracked.since_of_free (h : ¬ (y.state.bucket b).used = true) : y.since b = [] := if_neg h

/-- A bucket that a call leaves alone. -/
theorem Sound.keep {ws : List Write} (h : Sound cfg y) (hst : SameHoles y.state t b)
    (hu : (t.bucket b).used = true → (y.state.bucket b).used = true) (hw : payloads b ws = [])
    (hb : (t.bucket b).used = true) : ∃ l, l ≠ [] ∧
      HoleList cfg b (y.since b ++ payloads b ws) (t.bucket b).mem (t.ctrl b 0).holeFirst l := by
  obtain ⟨l, hne, hl⟩ := h.holes b (hu hb)
  rw [hw, List.append_nil, Tracked.since_of_used (hu hb)]
  exact ⟨l, hne, hl.same hst⟩

/-- A call that does nothing. -/
theorem Sound.quiet {x : Option ℤ} {r : Result} (h : Sound cfg y) (hx : ∀ n ∈ x, 0 ≤ n)
    (hr : ∀ b, r ≠ .reassembled b) : Lawful cfg y { state := y.state, result := r, dataLength := x } := by
  have hafter : Call.after cfg { state := y.state, result := r, dataLength := x } = y.state := by
    cases r with
    | reassembled b => exact absurd rfl (hr b)
    | whole => rfl
    | taken => rfl
  refine ⟨hx, trivial, fun b => ?_⟩
  rw [hafter]
  exact h.keep ⟨rfl, rfl⟩ id rfl

/-- A fragment of a known datagram. -/
theorem Sound.add (h : Sound cfg y) (hu : (y.state.bucket b).used = true) (hn : hdrLen ip ≤ length ip)
    (hf : cfg.sizeofHuge ≤ cfg.fuel) (ho : offset ≤ 2 ^ 31)
    (hfit : AddFits cfg (y.got b) (y.state.ctrl b 0).dataOffset offset (dataLength ip).toNat
      (y.state.marks cfg b 0)) :
    ∃ c, addFragment cfg y.state b 0 ip offset mf = some c ∧ Lawful cfg y c := by
  obtain ⟨l, hne, hl⟩ := h.holes b hu
  have hmarks : l.map (mark (y.state.bucket b).mem) = y.state.marks cfg b 0 := by
    rw [State.marks, hl.records_eq (hl.length_le.trans hf)]
  obtain ⟨c, hc, hadd⟩ := addFragment_fits mf hne rfl hl hmarks hfit hn ho hf
  have hsince : y.since b = y.got b := Tracked.since_of_used hu
  have hother : ∀ d, d ≠ b → SameHoles y.state c.state d := fun d hd => by
    obtain ⟨h₁, h₂, -⟩ := hadd.other d hd
    rw [SameHoles, h₁, h₂]
    exact ⟨rfl, rfl⟩
  refine ⟨c, hc, ⟨?_, hadd.safe _ hsince, fun d hd => ?_⟩⟩
  · rw [hadd.length]
    rintro n ⟨⟩
    unfold dataLength
    omega
  · obtain ⟨l', m, hl', -, -, hcase⟩ := hadd.left
    rcases hcase with ⟨hne', hr, hmem⟩ | ⟨-, hr, -⟩
    · have hafter : c.after cfg = c.state := by rw [Call.after, hr]
      rw [hafter] at hd ⊢
      by_cases hdb : d = b
      · subst hdb
        rw [hsince, hmem]
        exact ⟨l', hne', hl'⟩
      · refine h.keep (hother d hdb) (fun h' => ?_) (hadd.other d hdb).2.2 hd
        rwa [(hadd.other d hdb).1] at h'
    · have hafter : c.after cfg = (ip4FreeFragment cfg c.state b).2 := by rw [Call.after, hr]
      have huc : (c.state.bucket b).used = true := by
        rcases addFragment_book hc with ⟨-, hbk⟩ | ⟨-, hbk, -⟩
        · exact (congrArg Book.used (hbk b)).trans hu
        · exact (congrArg Book.used hbk).trans hu
      rw [hafter] at hd ⊢
      obtain ⟨-, hfree, hkeep⟩ := ip4FreeFragment_book cfg huc
      by_cases hdb : d = b
      · subst hdb
        exact absurd (hd.symm.trans (congrArg Book.used hfree)) Bool.false_ne_true.symm
      · refine h.keep ((hother d hdb).trans (ip4FreeFragment_same d)) (fun h' => ?_) (hadd.other d hdb).2.2 hd
        have hused := congrArg Book.used (hkeep d hdb)
        rw [← (hadd.other d hdb).1]
        exact hused.symm.trans h'

/-- The first fragment of a datagram. -/
theorem Sound.take (h : Sound cfg y) (hu : ¬ (y.state.bucket b).used = true) (hh : sizeofHeader ≤ hdrLen ip)
    (hn : hdrLen ip ≤ length ip) (hfit : TakeFits cfg ip offset mf) :
    ∃ c, setupFirstFrag cfg now y.state b ip offset mf = some c ∧ Lawful cfg y c := by
  have hv : Vacant cfg (book y.state b) := h.kept.vacant hu
  obtain ⟨c, set, hc, hbegun, hr, hdl, hwr, hmem, hfirst, hother⟩ :=
    setupFirstFrag_fits now hv hh hn hfit
  obtain ⟨-, -, hbk, -⟩ := setupFirstFrag_book hv hc
  have hsince : y.since b = [] := Tracked.since_of_free hu
  have hafter : c.after cfg = c.state := by rw [Call.after, hr]
  refine ⟨c, hc, ⟨?_, ?_, fun d hd => ?_⟩⟩
  · rw [hdl]
    rintro n ⟨⟩
    unfold dataLength
    omega
  · rw [hwr]
    exact hbegun.safe _ hsince
  · rw [hafter] at hd ⊢
    by_cases hdb : d = b
    · subst hdb
      rw [hsince, hwr, hmem, hfirst]
      exact hbegun.list
    · refine h.keep (hother d hdb) (fun h' => ?_) (by rw [hwr]; exact hbegun.other d hdb) hd
      exact (congrArg Book.used (hbk d hdb)).symm.trans h'

theorem fragOfs_le : fragOfs ip ≤ 2 ^ 31 := by
  have := (be16 ip 6 &&& 0x1fff).isLt
  unfold fragOfs
  omega

variable (now) in
/-- **A packet that fits.** -/
theorem handlerCall_lawful (h : Sound cfg y) (hf : cfg.sizeofHuge ≤ cfg.fuel) (hfit : Fits cfg y pad ip) :
    ∃ c, handlerCall cfg now pad y.state ip = some c ∧ Lawful cfg y c := by
  have measured : ∀ n : ℤ, n = dataLength ip ∧ Measured cfg y.state pad ip → 0 ≤ n := by
    rintro n ⟨rfl, hm⟩
    have := (hfit hm).1
    unfold dataLength
    omega
  by_cases hl : Looked cfg ip
  · have hm : ¬ (¬ (matchFrag cfg y.state pad ip).found = true ∧
        (matchFrag cfg y.state pad ip).slot = some (cfg.maxFragments - 1)) → Measured cfg y.state pad ip :=
      fun hm => ⟨hl.1, hl.2.1, hm⟩
    have hh : sizeofHeader ≤ hdrLen ip := (of_decide_eq_true hl.1).2.1
    rw [handlerCall_eq hl rfl]
    rcases matchFrag_cases pad ip h.kept rfl with ⟨b, hmine, hfd, hb, hs⟩ | ⟨-, hfd, hs⟩ | ⟨hfd, hb, hs, -, hfree, -⟩
    · obtain ⟨hn, hfit⟩ := hfit (hm fun h' => h'.1 hfd)
      simp only [hfd, hb, hs, not_true_eq_false, false_and, if_false]
      exact h.add hmine.1 hn hf fragOfs_le ((hfit hl.2.2).1 b 0 hb hs)
    · rw [if_pos ⟨by simp [hfd], hs⟩]
      exact ⟨_, rfl, h.quiet nofun nofun⟩
    · have hm := hm fun h' => by simp [hs] at h'
      obtain ⟨hn, hfit⟩ := hfit hm
      rw [if_neg (by simp [hs]), hb]
      cases hfb : (matchFrag cfg y.state pad ip).freeBucket with
      | none => exact ⟨_, rfl, h.quiet (by rintro n ⟨⟩; exact measured _ ⟨rfl, hm⟩) nofun⟩
      | some b =>
        have hu := hfree b hfb
        have h0 : ¬ (y.state.bucket b).active = cfg.maxFragments := by
          have : (y.state.bucket b).active = 0 := (h.kept.vacant hu).active
          rw [this]
          exact cfg.pos.ne
        simp only [if_neg h0]
        exact h.take hu hh hn ((hfit hl.2.2).2 hb (by simp [hfb]))
  · obtain ⟨x, r, hr, hx, he⟩ := handlerCall_quiet now pad hl
    exact ⟨_, he, h.quiet (fun n hn => measured n (hx n hn)) hr⟩

/-- A turn of the daemon takes no bucket. -/
theorem used_of_timeouts (h : Kept cfg s) (hu : ((chkTimeoutFrags cfg now s).bucket b).used = true) :
    (s.bucket b).used = true := by
  rcases timeoutBuckets_cases now h (List.finRange 2) with ⟨he, -⟩ | ⟨c, -, -, hc, hd⟩
  · rw [chkTimeoutFrags, he] at hu
    exact hu
  · by_cases hbc : b = c
    · subst hbc
      exact absurd (hu.symm.trans (congrArg Book.used hc)) Bool.false_ne_true.symm
    · exact (congrArg Book.used (hd b hbc)).symm.trans hu

/-- A turn of the daemon. -/
theorem Sound.timeouts (h : Sound cfg y) : Sound cfg { y with state := chkTimeoutFrags cfg now y.state } where
  kept := h.kept.timeouts
  holes b hu := by
    obtain ⟨l, hne, hl⟩ := h.holes b (used_of_timeouts h.kept hu)
    exact ⟨l, hne, hl.same (timeoutBuckets_same b)⟩

/-- **An event that fits** keeps the law and the invariant. -/
theorem track_sound (hf : cfg.sizeofHuge ≤ cfg.fuel) {x : Option Tracked} {ev : Event}
    (h : ∀ y ∈ x, Sound cfg y) (hr : MemoryRule cfg x ev) :
    MemoryLaw cfg x ev ∧ ∀ y ∈ track cfg x ev, Sound cfg y := by
  cases x with
  | none => exact ⟨nofun, nofun⟩
  | some y =>
    have h := h y rfl
    cases ev with
    | packet now pad ip =>
      obtain ⟨c, hc, hlaw⟩ := handlerCall_lawful now h hf (hr y rfl)
      constructor
      · rintro y ⟨⟩
        exact ⟨c, hc, hlaw.length, hlaw.safe⟩
      · intro t ht
        have ht : (handlerCall cfg now pad y.state ip).map _ = some t := ht
        rw [hc] at ht
        obtain rfl := Option.some.inj ht
        exact ⟨h.kept.after hc, hlaw.holes⟩
    | timeouts now =>
      refine ⟨by rintro y ⟨⟩; trivial, ?_⟩
      rintro t ⟨⟩
      exact h.timeouts

/-- **Reassembly in bounds**: along every run of packets that fit, no length is negative, all data
goes to the buffer, and all records lie in it away from the data that has come. -/
theorem memory_bounds (cfg : Config) (evs : List Event) (hfuel : cfg.sizeofHuge ≤ cfg.fuel)
    (hfit : Machine.Always (track cfg) (MemoryRule cfg) (some {}) evs) :
    Machine.Always (track cfg) (MemoryLaw cfg) (some {}) evs := by
  refine Machine.always_of_invariant (I := fun x : Option Tracked => ∀ y ∈ x, Sound cfg y) ?_ evs ?_ hfit
  · exact fun x ev hx hr => (track_sound hfuel hx hr).symm
  · rintro y ⟨⟩
    exact Sound.init

theorem memory_bounds_first : plainConfig.sizeofHuge ≤ plainConfig.fuel ∧
    Machine.Always (track plainConfig) (MemoryLaw plainConfig) (some {})
      [.packet 1000 0 (firstFragment 1 [0x46, 0xCE])] := by
  refine ⟨by decide, memory_bounds plainConfig _ (by decide) ⟨?_, trivial⟩⟩
  rintro y ⟨⟩ -
  have hfree : (matchFrag plainConfig {} 0 (firstFragment 1 [0x46, 0xCE])).bucket = none := by decide +kernel
  refine ⟨by decide +kernel, fun _ => ⟨fun b i hb => ?_, fun _ _ => ?_⟩⟩
  · exact absurd (hfree.symm.trans hb) (Option.some_ne_none b).symm
  · exact .inr ⟨by decide +kernel, by decide +kernel⟩

/-- A last fragment of 8 bytes at the offset 8. -/
def secondFragment : Packet :=
  Mem.put (fun _ => 0) 0 [0x45, 0, 0, 28, 0, 1, 0, 1, 64, 17, 0x66, 0xCD, 10, 0, 0, 1, 10, 0, 0, 2]

/-- **The claim fails**: it comes first, and the record of the hole before it, of 12 bytes, is written
over its data. -/
theorem record_meets_data :
    ¬ ∀ (cfg : Config) (evs : List Event), Machine.Always (track cfg) (MemoryLaw cfg) (some {}) evs := by
  intro h
  obtain ⟨c, hc, -, hsafe⟩ := (h plainConfig [.packet 1000 0 secondFragment]).1 {} rfl
  have hwrites : (handlerCall plainConfig 1000 0 {} secondFragment).map Call.writes =
      some [.payload 0 28 8, .hole 0 20] := by decide +kernel
  have hc : handlerCall plainConfig 1000 0 {} secondFragment = some c := hc
  rw [hc] at hwrites
  rw [Option.some.inj hwrites] at hsafe
  exact absurd (hsafe.2.1.2 (28, 8) (by simp)) (by unfold Apart sizeofHole; omega)

end Watt32.Frag
