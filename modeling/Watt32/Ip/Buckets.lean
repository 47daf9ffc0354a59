import Watt32.Ip.Reassembly
import Watt32.Lib.Run

/-!
# The life of a bucket

A bucket is taken by the first fragment of a datagram and freed when the datagram is complete or its
time is over.

* `Book`: the flags, the count, the key and the slots of a bucket; `Held`, `Vacant`.
* `Orderly`: what holds of them in every state; `Releases`: what an event frees.
* `call_cases`, `timeouts_cases`: what a packet and a turn of the daemon do to the books.
* **`lifecycle_iff`**: a run is orderly throughout exactly if no fragment misses its own bucket and
  no two datagrams expire at once.
-/

namespace Watt32.Frag

open Timer

variable {cfg : Config} {s t : State} {now : Dword} {pad : Byte} {ip : Packet} {offset i n : ℕ} {mf : Bool}
  {b : Bucket}

/-! ## Books -/

/-- What is kept about a bucket besides its data. -/
structure Book where
  used : Bool
  active : ℕ
  key : FragKey
  slots : ℕ → Bool × Dword

/-- The book of a bucket. -/
def book (s : State) (b : Bucket) : Book where
  used := (s.bucket b).used
  active := (s.bucket b).active
  key := (s.bucket b).key
  slots i := ((s.ctrl b i).used, (s.ctrl b i).timer)

/-- A bucket with a datagram: it counts one, in the first slot. -/
structure Held (cfg : Config) (k : Book) : Prop where
  used : k.used = true
  active : k.active = 1
  slots : ∀ i < cfg.maxFragments, (k.slots i).1 = true ↔ i = 0

/-- A bucket to be taken. -/
structure Vacant (cfg : Config) (k : Book) : Prop where
  used : k.used = false
  active : k.active = 0
  slots : ∀ i < cfg.maxFragments, (k.slots i).1 = false

/-- A slot of the bucket has timed out. -/
def Expired (cfg : Config) (now : Dword) (k : Book) : Prop :=
  k.used = true ∧ ∃ i < cfg.maxFragments, (k.slots i).1 = true ∧ chkTimeout now (k.slots i).2 = true

/-- The book of a freed bucket. -/
def Book.free (cfg : Config) (k : Book) : Book :=
  { k with used := false, active := 0, slots := fun i => if i < cfg.maxFragments then (false, (k.slots i).2) else k.slots i }

/-- The book of a bucket that a fragment has taken. -/
def Book.take (cfg : Config) (now : Dword) (ip : Packet) (k : Book) : Book where
  used := true
  active := k.active + 1
  key := fragKey ip
  slots := Function.update k.slots 0 (true, setTimeout now (BitVec.ofInt 32 (1000 * min cfg.reasm (ttl ip))))

theorem Book.free_vacant (k : Book) : Vacant cfg (k.free cfg) :=
  ⟨rfl, rfl, fun i hi => by simp [Book.free, hi]⟩

theorem Vacant.take {k : Book} (h : Vacant cfg k) : Held cfg (k.take cfg now ip) where
  used := rfl
  active := by rw [Book.take, h.active]
  slots i hi := by
    by_cases h0 : i = 0
    · simp [Book.take, h0]
    · simp [Book.take, h0, h.slots i hi]

/-- **The claim's states**: distinct used buckets have distinct keys; a used bucket counts one and
has one used slot, another counts none and has none. -/
structure Orderly (cfg : Config) (s : State) : Prop where
  distinct : ∀ b c, b ≠ c → (s.bucket b).used → (s.bucket c).used → (s.bucket b).key ≠ (s.bucket c).key
  held : ∀ b, (s.bucket b).used → (s.bucket b).active = 1 ∧
    ∃! i, i < cfg.maxFragments ∧ (s.ctrl b i).used = true
  vacant : ∀ b, ¬ (s.bucket b).used → (s.bucket b).active = 0 ∧
    ∀ i < cfg.maxFragments, (s.ctrl b i).used = false

/-- A bucket that can be taken again, with all its slots. -/
def Freed (cfg : Config) (s : State) (b : Bucket) : Prop :=
  (s.bucket b).used = false ∧ (s.bucket b).active = 0 ∧ ∀ i < cfg.maxFragments, (s.ctrl b i).used = false

/-- Each bucket is held or vacant. -/
def Kept (cfg : Config) (s : State) : Prop := ∀ b, Held cfg (book s b) ∨ Vacant cfg (book s b)

/-- The invariant behind it. -/
structure Books (cfg : Config) (s : State) : Prop where
  cases : Kept cfg s
  distinct : ∀ b c, b ≠ c → (book s b).used = true → (book s c).used = true → (book s b).key ≠ (book s c).key

theorem Books.init : Books cfg {} where
  cases _ := .inr ⟨rfl, rfl, fun _ _ => rfl⟩
  distinct _ _ _ h := absurd h Bool.false_ne_true

theorem Kept.held (h : Kept cfg s) (hu : (s.bucket b).used = true) : Held cfg (book s b) := by
  rcases h b with h | h
  · exact h
  · exact absurd (hu.symm.trans h.used) (by decide)

theorem Kept.vacant (h : Kept cfg s) (hu : ¬ (s.bucket b).used = true) : Vacant cfg (book s b) := by
  rcases h b with h | h
  · exact absurd h.used hu
  · exact h

theorem Books.orderly (h : Books cfg s) : Orderly cfg s where
  distinct := h.distinct
  held b hu := by
    have hb := h.cases.held hu
    exact ⟨hb.active, 0, ⟨cfg.pos, (hb.slots 0 cfg.pos).mpr rfl⟩, fun i hi => (hb.slots i hi.1).mp hi.2⟩
  vacant b hu := ⟨(h.cases.vacant hu).active, (h.cases.vacant hu).slots⟩

theorem freed_of_vacant (h : Vacant cfg (book s b)) : Freed cfg s b := ⟨h.used, h.active, h.slots⟩

theorem Kept.congr (h : Kept cfg s) (ht : ∀ b, book t b = book s b) : Kept cfg t := fun b => by
  rw [ht]; exact h b

theorem Kept.free (h : Kept cfg s) (hb : book t b = (book s b).free cfg)
    (ht : ∀ c, c ≠ b → book t c = book s c) : Kept cfg t := fun c => by
  by_cases hc : c = b
  · subst hc; rw [hb]; exact .inr (Book.free_vacant _)
  · rw [ht c hc]; exact h c

theorem Kept.take (h : Kept cfg s) (hv : Vacant cfg (book s b)) (hb : book t b = (book s b).take cfg now ip)
    (ht : ∀ c, c ≠ b → book t c = book s c) : Kept cfg t := fun c => by
  by_cases hc : c = b
  · subst hc; rw [hb]; exact .inl hv.take
  · rw [ht c hc]; exact h c

/-- A state with the same books is as good. -/
theorem Books.congr (h : Books cfg s) (ht : ∀ b, book t b = book s b) : Books cfg t where
  cases := h.cases.congr ht
  distinct b c := by rw [ht, ht]; exact h.distinct b c

/-- A bucket that is freed. -/
theorem Books.free (h : Books cfg s) (hb : book t b = (book s b).free cfg)
    (ht : ∀ c, c ≠ b → book t c = book s c) : Books cfg t where
  cases := h.cases.free hb ht
  distinct c d hcd hc hd := by
    have key : ∀ e, (book t e).used = true → book t e = book s e := by
      intro e he
      by_cases heb : e = b
      · subst heb; rw [hb] at he; exact absurd he Bool.false_ne_true
      · exact ht e heb
    rw [key c hc, key d hd]
    rw [key c hc] at hc
    rw [key d hd] at hd
    exact h.distinct c d hcd hc hd

/-- A bucket that is taken for a key that is not in use. -/
theorem Books.take (h : Books cfg s) (hv : Vacant cfg (book s b))
    (hnew : ∀ c, (book s c).used = true → (book s c).key ≠ fragKey ip)
    (hb : book t b = (book s b).take cfg now ip) (ht : ∀ c, c ≠ b → book t c = book s c) : Books cfg t where
  cases := h.cases.take hv hb ht
  distinct c d hcd hc hd := by
    by_cases hcb : c = b
    · subst hcb
      rw [ht d (Ne.symm hcd)] at hd ⊢
      rw [hb]
      exact (hnew d hd).symm
    · rw [ht c hcb] at hc ⊢
      by_cases hdb : d = b
      · subst hdb
        rw [hb]
        exact hnew c hc
      · rw [ht d hdb] at hd ⊢
        exact h.distinct c d hcd hc hd

/-! ## Packets -/

theorem matchSlots_held (h : Held cfg (book s b)) {slot : Option ℕ} :
    matchSlots (s.ctrl b) cfg.maxFragments 0 slot = (decide (1 < cfg.maxFragments), some 0) := by
  have h0 : (s.ctrl b 0).used = true := (h.slots 0 cfg.pos).mpr rfl
  obtain ⟨n, hn⟩ := Nat.exists_eq_succ_of_ne_zero cfg.pos.ne'
  rw [hn, matchSlots, if_pos h0]
  cases n with
  | zero => rfl
  | succ n =>
    have h1 : ¬ (s.ctrl b 1).used = true := fun h' => absurd ((h.slots 1 (by omega)).mp h') (by decide)
    rw [matchSlots, if_neg (by simpa using h1)]
    simp

theorem emptySlot_vacant (h : Vacant cfg (book s b)) : emptySlot (s.ctrl b) cfg.maxFragments = some 0 := by
  obtain ⟨n, hn⟩ := Nat.exists_eq_succ_of_ne_zero cfg.pos.ne'
  have h0 : (s.ctrl b 0).used = false := h.slots 0 cfg.pos
  rw [emptySlot, hn, List.range_succ_eq_map, List.find?_cons_of_pos (by simp [h0])]

/-- The bucket is that of the packet's datagram, and `match_frag` sees it. -/
def Mine (s : State) (pad : Byte) (ip : Packet) (b : Bucket) : Prop :=
  (s.bucket b).used = true ∧ fragKey ip = (s.bucket b).key ∧ pad = 0

/-- What the loop over the buckets finds: the bucket of the datagram with its slot, only its slot
where there is no other, or the first free bucket. -/
theorem matchBuckets_cases (h : Kept cfg s) : ∀ (bs : List Bucket) (m : Match),
    m.found = false → m.bucket = none →
    (m.slot = none ∨ m.slot = some 0 ∧ cfg.maxFragments = 1 ∧ ∃ b, Mine s pad ip b) →
    ∀ r, matchBuckets cfg s (fragKey ip) pad bs m = r →
    (∃ b ∈ bs, Mine s pad ip b ∧ r.found = true ∧ r.bucket = some b ∧ r.slot = some 0) ∨
    r.found = false ∧ r.bucket = none ∧
      (r.slot = none ∧ m.slot = none ∧ (∀ b ∈ bs, ¬ Mine s pad ip b) ∨
        r.slot = some 0 ∧ cfg.maxFragments = 1 ∧ ∃ b, Mine s pad ip b) ∧
      (∀ b, r.freeBucket = some b → m.freeBucket = some b ∨ ¬ (s.bucket b).used = true) ∧
      (r.freeBucket = none → m.freeBucket = none ∧ ∀ b ∈ bs, (s.bucket b).used = true)
  | [], m, hf, hb, hs, r, hr => by
    obtain rfl : m = r := hr
    refine .inr ⟨hf, hb, ?_, fun b hb => .inl hb, fun h => ⟨h, by simp⟩⟩
    rcases hs with hs | hs
    · exact .inl ⟨hs, hs, by simp⟩
    · exact .inr hs
  | b :: bs, m, hf, hb, hs, r, hr => by
    rw [matchBuckets] at hr
    by_cases hu : (s.bucket b).used = true
    · rw [if_neg (not_not.mpr hu)] at hr
      by_cases hk : fragKey ip = (s.bucket b).key ∧ pad = 0
      · rw [if_neg (not_not.mpr hk), matchSlots_held (h.held hu)] at hr
        by_cases h1 : 1 < cfg.maxFragments
        · simp only [h1, decide_true, if_true] at hr
          subst hr
          exact .inl ⟨b, List.mem_cons_self, ⟨hu, hk⟩, rfl, rfl, rfl⟩
        · have hone : cfg.maxFragments = 1 := by have := cfg.pos; omega
          simp only [h1, decide_false, Bool.false_eq_true, if_false] at hr
          rcases matchBuckets_cases h bs { m with slot := some 0 } hf hb (.inr ⟨rfl, hone, b, hu, hk⟩)
              r hr with
            ⟨c, hc, h'⟩ | ⟨h₁, h₂, h₃, h₄, h₅⟩
          · exact .inl ⟨c, List.mem_cons_of_mem _ hc, h'⟩
          · refine .inr ⟨h₁, h₂, ?_, h₄, fun hn => ⟨(h₅ hn).1, List.forall_mem_cons.mpr ⟨hu, (h₅ hn).2⟩⟩⟩
            rcases h₃ with ⟨-, h', -⟩ | h₃
            · exact absurd h' (Option.some_ne_none _)
            · exact .inr h₃
      · rw [if_pos hk] at hr
        rcases matchBuckets_cases h bs _ hf hb hs r hr with ⟨c, hc, h'⟩ | ⟨h₁, h₂, h₃, h₄, h₅⟩
        · exact .inl ⟨c, List.mem_cons_of_mem _ hc, h'⟩
        · refine .inr ⟨h₁, h₂, ?_, h₄, fun hn => ⟨(h₅ hn).1, List.forall_mem_cons.mpr ⟨hu, (h₅ hn).2⟩⟩⟩
          exact h₃.imp_left fun ⟨h, h', hm⟩ => ⟨h, h', List.forall_mem_cons.mpr ⟨fun hb => hk hb.2, hm⟩⟩
    · rw [if_pos hu] at hr
      rcases matchBuckets_cases h bs { m with freeBucket := m.freeBucket <|> some b } hf hb hs r hr with
        ⟨c, hc, h'⟩ | ⟨h₁, h₂, h₃, h₄, h₅⟩
      · exact .inl ⟨c, List.mem_cons_of_mem _ hc, h'⟩
      · refine .inr ⟨h₁, h₂, ?_, fun c hc => ?_, fun hn => ?_⟩
        · exact h₃.imp_left fun ⟨h, h', hm⟩ => ⟨h, h', List.forall_mem_cons.mpr ⟨fun hb => hu hb.1, hm⟩⟩
        · rcases h₄ c hc with (hc : (m.freeBucket <|> some b) = some c) | hc
          · cases hmf : m.freeBucket with
            | none =>
              rw [hmf] at hc
              obtain rfl : b = c := Option.some.inj hc
              exact .inr hu
            | some d => rw [hmf] at hc; exact .inl hc
          · exact .inr hc
        · have hn : (m.freeBucket <|> some b) = none := (h₅ hn).1
          cases hmf : m.freeBucket <;> simp [hmf] at hn

variable (pad ip) in
/-- What `match_frag` finds. -/
theorem matchFrag_cases (h : Kept cfg s) {r : Match} (hr : matchFrag cfg s pad ip = r) :
    (∃ b, Mine s pad ip b ∧ r.found = true ∧ r.bucket = some b ∧ r.slot = some 0) ∨
    ((∃ b, Mine s pad ip b) ∧ r.found = false ∧ r.slot = some (cfg.maxFragments - 1)) ∨
    r.found = false ∧ r.bucket = none ∧ r.slot = none ∧ (∀ b, ¬ Mine s pad ip b) ∧
      (∀ b, r.freeBucket = some b → ¬ (s.bucket b).used = true) ∧
      (r.freeBucket = none → ∀ b, (s.bucket b).used = true) := by
  rcases matchBuckets_cases h _ {} rfl rfl (.inl rfl) r hr with ⟨b, -, h'⟩ | ⟨h₁, h₂, h₃, h₄, h₅⟩
  · exact .inl ⟨b, h'⟩
  · rcases h₃ with ⟨hs, -, hm⟩ | ⟨hs, hone, hmine⟩
    · refine .inr (.inr ⟨h₁, h₂, hs, fun b => hm b (List.mem_finRange b), fun b hb => ?_, fun hn b => ?_⟩)
      · exact (h₄ b hb).resolve_left (Option.some_ne_none b).symm
      · exact (h₅ hn).2 b (List.mem_finRange b)
    · exact .inr (.inl ⟨hmine, h₁, by rw [hs, hone]⟩)

/-! ## What a call does to the books -/

theorem book_setBucket {fb : FragBucket} (c : Bucket) :
    book (s.setBucket b fb) c = if c = b then
      { book s b with used := fb.used, active := fb.active, key := fb.key } else book s c := by
  split_ifs with h
  · subst h; simp [book, State.setBucket]
  · simp [book, State.setBucket, h]

theorem book_setCtrl {fc : FragCtrl} (c : Bucket) :
    book (s.setCtrl b i fc) c = if c = b then
      { book s b with slots := Function.update (book s b).slots i (fc.used, fc.timer) } else book s c := by
  split_ifs with h
  · subst h
    simp only [book, State.setCtrl, Function.update_self, Book.mk.injEq, true_and]
    funext j
    by_cases hj : j = i
    · subst hj; simp
    · simp [hj]
  · simp [book, State.setCtrl, h]

/-- The first fragment takes a vacant bucket. -/
theorem setupFirstFrag_book {c : Call} (hv : Vacant cfg (book s b))
    (hc : setupFirstFrag cfg now s b ip offset mf = some c) :
    c.result = .taken ∧ book c.state b = (book s b).take cfg now ip ∧
      (∀ d, d ≠ b → book c.state d = book s d) ∧ ¬ (offset ≠ 0 ∧ dataLength ip < 0) := by
  rw [setupFirstFrag, emptySlot_vacant hv] at hc
  simp only at hc
  split_ifs at hc with hu <;>
  · obtain rfl := Option.some.inj hc
    refine ⟨rfl, ?_, fun d hd => ?_, by assumption⟩
    · rw [book_setCtrl, if_pos rfl, book_setBucket, if_pos rfl]
      rfl
    · rw [book_setCtrl, if_neg hd, book_setBucket, if_neg hd]

/-- A further fragment changes no book, unless the datagram is complete: then it counts one less. -/
theorem addFragment_book {c : Call} (hc : addFragment cfg s b i ip offset mf = some c) :
    c.result = .taken ∧ (∀ d, book c.state d = book s d) ∨
    c.result = .reassembled b ∧ book c.state b = { book s b with active := (s.bucket b).active - 1 } ∧
      ∀ d, d ≠ b → book c.state d = book s d := by
  have keep : ∀ (p : Dword) d, book (s.setCtrl b i { s.ctrl b i with holeFirst := p }) d = book s d := by
    intro p d
    rw [book_setCtrl]
    by_cases hd : d = b
    · subst hd
      rw [if_pos rfl]
      simp only [book, Book.mk.injEq, true_and]
      exact Function.update_eq_self i fun j => ((s.ctrl d j).used, (s.ctrl d j).timer)
    · rw [if_neg hd]
  rw [addFragment] at hc
  split at hc
  · simp at hc
  · split at hc
    · simp at hc
    · split at hc
      · simp at hc
      · simp only [Option.some.injEq] at hc
        split at hc
        · subst hc
          refine .inr ⟨rfl, ?_, fun d hd => ?_⟩
          · rw [book_setBucket, if_pos rfl, keep]
            rfl
          · rw [book_setBucket, if_neg hd, keep]
        · subst hc
          refine .inl ⟨rfl, fun d => ?_⟩
          by_cases hd : d = b
          · subst hd; rw [book_setBucket, if_pos rfl, keep]; rfl
          · rw [book_setBucket, if_neg hd, keep]

variable (cfg) in
theorem ip4FreeFragment_book (hu : (s.bucket b).used = true) :
    (ip4FreeFragment cfg s b).1 = true ∧
      book (ip4FreeFragment cfg s b).2 b = (book s b).free cfg ∧
      ∀ d, d ≠ b → book (ip4FreeFragment cfg s b).2 d = book s d := by
  rw [ip4FreeFragment, if_pos hu]
  refine ⟨rfl, ?_, fun d hd => ?_⟩
  · simp only [book, Book.free, State.setBucket, Function.update_self, Book.mk.injEq, true_and]
    funext i
    by_cases hi : i < cfg.maxFragments <;> simp [hi]
  · simp [book, State.setBucket, hd]

/-- A fragment that `ip4_defragment` looks at. -/
def Looked (cfg : Config) (ip : Packet) : Prop :=
  chkIp4Header ip = true ∧ ¬ (fragOfs ip = 0 ∧ ¬ moreFrags ip = true) ∧
    FragOk cfg ip (fragOfs ip) (moreFrags ip)

/-- One that a bucket is taken for, when it does not belong to one. -/
def Enters (cfg : Config) (ip : Packet) : Prop :=
  Looked cfg ip ∧ ¬ (fragOfs ip ≠ 0 ∧ dataLength ip < 0)

/-- A fragment that `data_length` is computed for. -/
def Measured (cfg : Config) (s : State) (pad : Byte) (ip : Packet) : Prop :=
  chkIp4Header ip = true ∧ ¬ (fragOfs ip = 0 ∧ ¬ moreFrags ip = true) ∧
    ¬ (¬ (matchFrag cfg s pad ip).found = true ∧ (matchFrag cfg s pad ip).slot = some (cfg.maxFragments - 1))

variable (now pad) in
/-- Any other packet leaves the state as it is. -/
theorem handlerCall_quiet (hn : ¬ Looked cfg ip) :
    ∃ x r, (∀ b, r ≠ .reassembled b) ∧ (∀ n ∈ x, n = dataLength ip ∧ Measured cfg s pad ip) ∧
      handlerCall cfg now pad s ip = some { state := s, result := r, dataLength := x } := by
  by_cases hchk : chkIp4Header ip = true
  · by_cases hw : fragOfs ip = 0 ∧ ¬ moreFrags ip = true
    · exact ⟨none, .whole, by simp, by simp, by rw [handlerCall, if_pos hchk, ip4Defragment, if_pos hw]⟩
    · have hok : ¬ FragOk cfg ip (fragOfs ip) (moreFrags ip) := fun hok => hn ⟨hchk, hw, hok⟩
      by_cases hm : ¬ (matchFrag cfg s pad ip).found = true ∧
          (matchFrag cfg s pad ip).slot = some (cfg.maxFragments - 1)
      · refine ⟨none, .taken, by simp, by simp, ?_⟩
        rw [handlerCall, if_pos hchk, ip4Defragment, if_neg hw]
        exact if_pos hm
      · refine ⟨some (dataLength ip), .taken, by simp, ?_, ?_⟩
        · rintro n ⟨⟩
          exact ⟨rfl, hchk, hw, hm⟩
        · rw [handlerCall, if_pos hchk, ip4Defragment, if_neg hw]
          exact (if_neg hm).trans (if_pos hok)
  · exact ⟨none, .taken, by simp, by simp, by rw [handlerCall, if_neg hchk]⟩

/-- A fragment that is looked at. -/
theorem handlerCall_eq (hl : Looked cfg ip) {m : Match} (hm : matchFrag cfg s pad ip = m) :
    handlerCall cfg now pad s ip =
      if ¬ m.found = true ∧ m.slot = some (cfg.maxFragments - 1) then
        some { state := s, result := .taken }
      else
        match m.bucket with
        | some b =>
          match m.slot with
          | none => none
          | some i => addFragment cfg s b i ip (fragOfs ip) (moreFrags ip)
        | none =>
          match m.freeBucket with
          | none => some { state := s, result := .taken, dataLength := dataLength ip }
          | some b =>
            if (s.bucket b).active = cfg.maxFragments then
              some { state := s, result := .taken, dataLength := dataLength ip }
            else setupFirstFrag cfg now s b ip (fragOfs ip) (moreFrags ip) := by
  subst hm
  obtain ⟨hchk, hw, hok⟩ := hl
  rw [handlerCall, if_pos hchk, ip4Defragment, if_neg hw]
  exact if_congr Iff.rfl rfl (if_neg (not_not.mpr hok))

/-- What a packet does: nothing to the books, or it takes a vacant bucket for a key that
`match_frag` does not find, or it completes a datagram. -/
theorem call_cases (h : Kept cfg s) {c : Call} (hc : handlerCall cfg now pad s ip = some c) :
    ((∀ b, c.result ≠ .reassembled b) ∧ ∀ d, book c.state d = book s d) ∨
    (∃ b, (∀ d, c.result ≠ .reassembled d) ∧ Vacant cfg (book s b) ∧ Enters cfg ip ∧
      (∀ d, ¬ Mine s pad ip d) ∧ book c.state b = (book s b).take cfg now ip ∧
      ∀ d, d ≠ b → book c.state d = book s d) ∨
    ∃ b, c.result = .reassembled b ∧ (s.bucket b).used = true ∧
      book c.state b = { book s b with active := (s.bucket b).active - 1 } ∧
      ∀ d, d ≠ b → book c.state d = book s d := by
  have quiet : ∀ {x : Option ℤ} {r : Result}, (∀ b, r ≠ .reassembled b) →
      some { state := s, result := r, dataLength := x } = some c →
      (∀ b, c.result ≠ .reassembled b) ∧ ∀ d, book c.state d = book s d := by
    rintro x r hr he
    obtain rfl := Option.some.inj he
    exact ⟨hr, fun _ => rfl⟩
  by_cases hl : Looked cfg ip
  · rw [handlerCall_eq hl rfl] at hc
    rcases matchFrag_cases pad ip h rfl with ⟨b, hmine, hf, hb, hs⟩ | ⟨-, hf, hs⟩ | ⟨hf, hb, hs, hnone, hfree, -⟩
    · simp only [hf, hb, hs, not_true_eq_false, false_and, if_false] at hc
      rcases addFragment_book hc with ⟨hr, hbk⟩ | ⟨hr, hbk, hd⟩
      · exact .inl ⟨by simp [hr], hbk⟩
      · exact .inr (.inr ⟨b, hr, hmine.1, hbk, hd⟩)
    · rw [if_pos ⟨by simp [hf], hs⟩] at hc
      exact .inl (quiet (by simp) hc)
    · rw [if_neg (by simp [hs]), hb] at hc
      cases hfb : (matchFrag cfg s pad ip).freeBucket with
      | none =>
        rw [hfb] at hc
        exact .inl (quiet (by simp) hc)
      | some b =>
        simp only [hfb] at hc
        split_ifs at hc
        · exact .inl (quiet (by simp) hc)
        · have hv := h.vacant (hfree b hfb)
          obtain ⟨hr, hbk, hd, hdl⟩ := setupFirstFrag_book hv hc
          exact .inr (.inl ⟨b, by simp [hr], hv, ⟨hl, hdl⟩, hnone, hbk, hd⟩)
  · obtain ⟨x, r, hr, -, he⟩ := handlerCall_quiet now pad hl
    exact .inl (quiet hr (he.symm.trans hc))

variable (now) in
/-- A fragment that does not belong to a bucket takes one when there is one. -/
theorem call_takes (h : Kept cfg s) (he : Enters cfg ip) (hm : ∀ b, ¬ Mine s pad ip b)
    (hfree : ∃ b, ¬ (s.bucket b).used = true) :
    ∃ c b, handlerCall cfg now pad s ip = some c ∧ (∀ d, c.result ≠ .reassembled d) ∧
      ¬ (s.bucket b).used = true ∧ book c.state b = (book s b).take cfg now ip ∧
      ∀ d, d ≠ b → book c.state d = book s d := by
  obtain ⟨hl, hdl⟩ := he
  rw [handlerCall_eq hl rfl]
  rcases matchFrag_cases pad ip h rfl with ⟨b, hmine, -⟩ | ⟨⟨b, hmine⟩, -⟩ | ⟨hf, hb, hs, -, hvac, hfull⟩
  · exact absurd hmine (hm b)
  · exact absurd hmine (hm b)
  · rw [if_neg (by simp [hs]), hb]
    cases hfb : (matchFrag cfg s pad ip).freeBucket with
    | none =>
      obtain ⟨b, hb⟩ := hfree
      exact absurd (hfull hfb b) hb
    | some b =>
      have hv := h.vacant (hvac b hfb)
      have h0 : ¬ (s.bucket b).active = cfg.maxFragments := by
        have : (s.bucket b).active = 0 := hv.active
        rw [this]
        exact cfg.pos.ne
      simp only [if_neg h0]
      cases hset : setupFirstFrag cfg now s b ip (fragOfs ip) (moreFrags ip) with
      | none =>
        rw [setupFirstFrag, emptySlot_vacant hv] at hset
        simp only [if_neg hdl] at hset
        exact absurd hset (Option.some_ne_none _)
      | some c =>
        obtain ⟨hr, hbk, hd, -⟩ := setupFirstFrag_book hv hset
        exact ⟨c, b, rfl, by simp [hr], hvac b hfb, hbk, hd⟩

/-! ## Timeouts -/

/-- A used bucket is freed when one of the slots has timed out. -/
theorem timeoutSlots_cases (hu : (s.bucket b).used = true) {r : Bool × State}
    (hr : timeoutSlots cfg now b n i s = r) :
    (r = (false, s) ∧ ∀ j, i ≤ j → j < i + n →
      ¬ ((s.ctrl b j).used = true ∧ chkTimeout now (s.ctrl b j).timer = true)) ∨
    (∃ j, j < i + n ∧ (s.ctrl b j).used = true ∧ chkTimeout now (s.ctrl b j).timer = true) ∧
      r.1 = true ∧ book r.2 b = (book s b).free cfg ∧ ∀ d, d ≠ b → book r.2 d = book s d := by
  induction n generalizing i with
  | zero => exact .inl ⟨hr.symm, fun j h₁ h₂ => absurd h₂ (by omega)⟩
  | succ n ih =>
    rw [timeoutSlots] at hr
    by_cases hx : (s.ctrl b i).used = true ∧ chkTimeout now (s.ctrl b i).timer = true
    · rw [if_neg (by tauto)] at hr
      have sent : ∀ l : List FragKey,
          (∃ j, j < i + (n + 1) ∧ (s.ctrl b j).used = true ∧ chkTimeout now (s.ctrl b j).timer = true) ∧
          (ip4FreeFragment cfg { s with timexceed := l } b).1 = true ∧
          book (ip4FreeFragment cfg { s with timexceed := l } b).2 b = (book s b).free cfg ∧
          ∀ d, d ≠ b → book (ip4FreeFragment cfg { s with timexceed := l } b).2 d = book s d := fun l =>
        ⟨⟨i, by omega, hx⟩, ip4FreeFragment_book cfg (s := { s with timexceed := l }) hu⟩
      right
      have key : ∃ l, ((ip4FreeFragment cfg { s with timexceed := l } b).1,
          (ip4FreeFragment cfg { s with timexceed := l } b).2) = r := by
        split_ifs at hr with h0
        · refine ⟨s.timexceed ++ [(s.bucket b).key], ?_⟩
          have := (sent (s.timexceed ++ [(s.bucket b).key])).2.1
          simpa [this] using hr
        · refine ⟨s.timexceed, ?_⟩
          have := (sent s.timexceed).2.1
          simpa [this] using hr
      obtain ⟨l, rfl⟩ := key
      exact sent l
    · rw [if_pos (by tauto)] at hr
      rcases ih hr with ⟨h, hn⟩ | ⟨⟨j, hj, h⟩, h'⟩
      · refine .inl ⟨h, fun j h₁ h₂ => ?_⟩
        rcases Nat.eq_or_lt_of_le h₁ with rfl | hlt
        · exact hx
        · exact hn j hlt (by omega)
      · exact .inr ⟨⟨j, by omega, h⟩, h'⟩

variable (now) in
/-- A turn of the daemon frees the first bucket that has expired, if there is one. -/
theorem timeoutBuckets_cases (h : Kept cfg s) (bs : List Bucket) :
    (timeoutBuckets cfg now bs s = s ∧ ∀ b ∈ bs, ¬ Expired cfg now (book s b)) ∨
    ∃ b ∈ bs, Expired cfg now (book s b) ∧
      book (timeoutBuckets cfg now bs s) b = (book s b).free cfg ∧
      ∀ d, d ≠ b → book (timeoutBuckets cfg now bs s) d = book s d := by
  induction bs with
  | nil => exact .inl ⟨rfl, by simp⟩
  | cons b bs ih =>
    have next : ¬ Expired cfg now (book s b) → timeoutBuckets cfg now (b :: bs) s = timeoutBuckets cfg now bs s →
        (timeoutBuckets cfg now (b :: bs) s = s ∧ ∀ c ∈ b :: bs, ¬ Expired cfg now (book s c)) ∨
        ∃ c ∈ b :: bs, Expired cfg now (book s c) ∧
          book (timeoutBuckets cfg now (b :: bs) s) c = (book s c).free cfg ∧
          ∀ d, d ≠ c → book (timeoutBuckets cfg now (b :: bs) s) d = book s d := by
      intro hx he
      rw [he]
      rcases ih with ⟨h₁, h₂⟩ | ⟨c, hc, h'⟩
      · exact .inl ⟨h₁, List.forall_mem_cons.mpr ⟨hx, h₂⟩⟩
      · exact .inr ⟨c, List.mem_cons_of_mem _ hc, h'⟩
    rcases h b with hb | hb
    · have h0 : ¬ (s.bucket b).active = 0 := by
        have : (s.bucket b).active = 1 := hb.active
        omega
      rcases timeoutSlots_cases (n := cfg.maxFragments) (i := 0) hb.used rfl with
        ⟨hr, hn⟩ | ⟨⟨j, hj, hx⟩, hr, hbk, hd⟩
      · refine next (fun ⟨_, j, hj, hx⟩ => hn j (Nat.zero_le j) (by omega) hx) ?_
        rw [timeoutBuckets, if_neg h0, hr]
        rfl
      · have he : timeoutBuckets cfg now (b :: bs) s = (timeoutSlots cfg now b cfg.maxFragments 0 s).2 := by
          rw [timeoutBuckets, if_neg h0]
          exact if_pos hr
        rw [he]
        exact .inr ⟨b, List.mem_cons_self, ⟨hb.used, j, by omega, hx⟩, hbk, hd⟩
    · have h0 : (s.bucket b).active = 0 := hb.active
      refine next (fun hx => absurd (hx.1.symm.trans hb.used) (by decide)) ?_
      rw [timeoutBuckets, if_pos h0]

/-! ## Runs -/

/-- What an event frees: the bucket of a datagram that is complete, those of all that have timed
out. -/
def Releases (cfg : Config) (s t : State) : Event → Prop
  | .packet now pad ip => ∀ c b, handlerCall cfg now pad s ip = some c → c.result = .reassembled b →
      Freed cfg t b
  | .timeouts now => ∀ b, Expired cfg now (book s b) → Freed cfg t b

/-- The states before and after an event are orderly, and it frees what it should. -/
def LifecycleLaw (cfg : Config) (s : Option State) (ev : Event) : Prop :=
  ∀ u ∈ s, Orderly cfg u ∧ ∀ t ∈ step cfg (some u) ev, Orderly cfg t ∧ Releases cfg u t ev

/-- The fragment belongs to a bucket, but the byte behind the key differs, and another bucket is
free. -/
def Misses (cfg : Config) (s : State) (pad : Byte) (ip : Packet) : Prop :=
  Enters cfg ip ∧ pad ≠ 0 ∧ (∃ b, (s.bucket b).used = true ∧ fragKey ip = (s.bucket b).key) ∧
    ∃ b, ¬ (s.bucket b).used = true

/-- When an event keeps it: a fragment finds its bucket, and at most one datagram has timed out. -/
def LifecycleRule (cfg : Config) (s : Option State) (ev : Event) : Prop :=
  ∀ u ∈ s,
    match ev with
    | .packet _ pad ip => ¬ Misses cfg u pad ip
    | .timeouts now => ∀ b c, Expired cfg now (book u b) → Expired cfg now (book u c) → b = c

/-- What follows a call. -/
theorem after_cases (h : Kept cfg s) {c : Call} (hc : handlerCall cfg now pad s ip = some c) :
    ((∀ b, c.result ≠ .reassembled b) ∧ ∀ d, book (c.after cfg) d = book s d) ∨
    (∃ b, (∀ d, c.result ≠ .reassembled d) ∧ Vacant cfg (book s b) ∧ Enters cfg ip ∧
      (∀ d, ¬ Mine s pad ip d) ∧ book (c.after cfg) b = (book s b).take cfg now ip ∧
      ∀ d, d ≠ b → book (c.after cfg) d = book s d) ∨
    ∃ b, c.result = .reassembled b ∧ book (c.after cfg) b = (book s b).free cfg ∧
      ∀ d, d ≠ b → book (c.after cfg) d = book s d := by
  have plain : (∀ b, c.result ≠ .reassembled b) → c.after cfg = c.state := by
    intro hr
    rw [Call.after]
    split
    · next b hb => exact absurd hb (hr b)
    · rfl
  rcases call_cases h hc with ⟨hr, hbk⟩ | ⟨b, hr, h'⟩ | ⟨b, hr, hu, hbk, hd⟩
  · exact .inl ⟨hr, by rw [plain hr]; exact hbk⟩
  · exact .inr (.inl ⟨b, hr, by rw [plain hr]; exact h'⟩)
  · have hu' : (c.state.bucket b).used = true := (congrArg Book.used hbk).trans hu
    obtain ⟨-, h₁, h₂⟩ := ip4FreeFragment_book cfg hu'
    have ha : c.after cfg = (ip4FreeFragment cfg c.state b).2 := by rw [Call.after, hr]
    rw [← ha] at h₁ h₂
    refine .inr (.inr ⟨b, hr, ?_, fun d hne => (h₂ d hne).trans (hd d hne)⟩)
    rw [h₁, hbk]
    rfl

/-- Buckets stay held or vacant. -/
theorem Kept.after (h : Kept cfg s) {c : Call} (hc : handlerCall cfg now pad s ip = some c) :
    Kept cfg (c.after cfg) := by
  rcases after_cases h hc with ⟨-, hbk⟩ | ⟨b, -, hv, -, -, hbk, hd⟩ | ⟨b, -, hbk, hd⟩
  exacts [h.congr hbk, h.take hv hbk hd, h.free hbk hd]

theorem Kept.timeouts (h : Kept cfg s) : Kept cfg (chkTimeoutFrags cfg now s) := by
  rcases timeoutBuckets_cases now h (List.finRange 2) with ⟨he, -⟩ | ⟨b, -, -, hbk, hd⟩
  · rw [chkTimeoutFrags, he]
    exact h
  · exact h.free hbk hd

/-- One event from a state with books in order. -/
theorem step_books (h : Books cfg s) {ev : Event} (hq : LifecycleRule cfg (some s) ev) :
    ∀ t ∈ step cfg (some s) ev, Books cfg t ∧ Releases cfg s t ev := by
  intro t ht
  have hq := hq s rfl
  cases ev with
  | packet now pad ip =>
    obtain ⟨c, hc, rfl⟩ := Option.map_eq_some_iff.mp ht
    rcases after_cases h.cases hc with ⟨hr, hbk⟩ | ⟨b, hr, hv, he, hm, hbk, hd⟩ | ⟨b, hr, hbk, hd⟩
    · refine ⟨h.congr hbk, fun c' b hc' hb => ?_⟩
      obtain rfl := Option.some.inj (hc.symm.trans hc')
      exact absurd hb (hr b)
    · constructor
      · refine h.take hv (fun d hu hk => ?_) hbk hd
        -- the key is in use: then the byte behind it was not 0, and the fragment misses its bucket
        refine hq ⟨he, fun hp => hm d ⟨hu, hk.symm, hp⟩, ⟨d, hu, hk.symm⟩, b, ?_⟩
        exact fun hb => absurd (hb.symm.trans hv.used) (by decide)
      · intro c' d hc' hd'
        obtain rfl := Option.some.inj (hc.symm.trans hc')
        exact absurd hd' (hr d)
    · refine ⟨h.free hbk hd, fun c' d hc' hd' => ?_⟩
      obtain rfl := Option.some.inj (hc.symm.trans hc')
      obtain rfl := Result.reassembled.inj (hr.symm.trans hd')
      exact freed_of_vacant (by rw [hbk]; exact Book.free_vacant _)
  | timeouts now =>
    obtain rfl := Option.some.inj ht
    rcases timeoutBuckets_cases now h.cases (List.finRange 2) with ⟨he, hn⟩ | ⟨b, -, hx, hbk, hd⟩
    · refine ⟨?_, fun b hx => absurd hx (hn b (List.mem_finRange b))⟩
      rw [chkTimeoutFrags, he]
      exact h
    · refine ⟨h.free hbk hd, fun c hc => ?_⟩
      obtain rfl := hq b c hx hc
      exact freed_of_vacant (by rw [chkTimeoutFrags, hbk]; exact Book.free_vacant _)

/-- An event that breaks the rule breaks the law. -/
theorem rule_of_law (h : Books cfg s) {ev : Event} (hp : LifecycleLaw cfg (some s) ev) :
    LifecycleRule cfg (some s) ev := by
  intro u hu
  obtain rfl := Option.some.inj hu
  have hp := (hp s rfl).2
  cases ev with
  | packet now pad ip =>
    rintro ⟨he, hpad, ⟨b, hb, hk⟩, hfree⟩
    obtain ⟨c, d, hc, hr, hu, hbk, hd⟩ := call_takes now h.cases he (fun b hm => hpad hm.2.2) hfree
    have ho := (hp _ (Option.map_eq_some_iff.mpr ⟨c, hc, rfl⟩)).1
    have ha : c.after cfg = c.state := by
      rw [Call.after]
      split
      · next e he => exact absurd he (hr e)
      · rfl
    rw [ha] at ho
    have hne : b ≠ d := fun h => hu (h ▸ hb)
    have hb' : book c.state b = book s b := hd b hne
    refine ho.distinct b d hne ((congrArg Book.used hb').trans hb) (congrArg Book.used hbk) ?_
    exact (congrArg Book.key hb').trans (hk.symm.trans (congrArg Book.key hbk).symm)
  | timeouts now =>
    intro b c hb hc
    by_contra hne
    have hrel := (hp _ rfl).2
    rcases timeoutBuckets_cases now h.cases (List.finRange 2) with ⟨-, hn⟩ | ⟨d, -, -, hbk, hd⟩
    · exact hn b (List.mem_finRange b) hb
    · -- one of the two is not the bucket that was freed
      have stays : ∀ e, e ≠ d → Expired cfg now (book s e) → False := by
        intro e hne hx
        have hf := (hrel e hx).1
        have he := hd e hne
        have : ((chkTimeoutFrags cfg now s).bucket e).used = (s.bucket e).used := congrArg Book.used he
        exact absurd (hf.symm.trans (this.trans hx.1)) (by decide)
      by_cases hbd : b = d
      · exact stays c (fun hcd => hne (hbd.trans hcd.symm)) hc
      · exact stays b hbd hb

/-- **The life of a bucket**: all states of a run are orderly, and all that is complete or timed out
is freed at once, exactly if no fragment misses its bucket and no two datagrams have timed out when
the daemon comes by. -/
theorem lifecycle_iff (cfg : Config) (evs : List Event) :
    Machine.Always (step cfg) (LifecycleLaw cfg) (some {}) evs ↔
      Machine.Always (step cfg) (LifecycleRule cfg) (some {}) evs := by
  refine Machine.always_iff_of_invariant (I := fun s : Option State => ∀ u ∈ s, Books cfg u) ?_ ?_ evs ?_
  · intro s ev hI hq t ht
    cases s with
    | none => simp [step] at ht
    | some u => exact (step_books (hI u rfl) hq t ht).1
  · intro s ev hI
    cases s with
    | none => exact ⟨fun _ u hu => by simp at hu, fun _ u hu => by simp at hu⟩
    | some u =>
      refine ⟨rule_of_law (hI u rfl), fun hq v hv => ?_⟩
      obtain rfl := Option.some.inj hv
      refine ⟨(hI u rfl).orderly, fun t ht => ?_⟩
      obtain ⟨hb, hr⟩ := step_books (hI u rfl) hq t ht
      exact ⟨hb.orderly, hr⟩
  · intro u hu
    obtain rfl := Option.some.inj hu
    exact Books.init

/-- A first fragment of 8 bytes with this identification and header checksum. -/
def firstFragment (ident : Byte) (sum : List Byte) : Packet :=
  Mem.put (fun _ => 0) 0 ([0x45, 0, 0, 28, 0, ident, 0x20, 0, 64, 17] ++ sum ++ [10, 0, 0, 1, 10, 0, 0, 2])

/-- A build with 45 fragments of 1480 bytes, and 15 seconds to hold them. -/
def plainConfig : Config :=
  ⟨45, 1500, 15, fun b => 0x10000 + 0x20000 * b, 66624, by decide, by decide, by decide, by decide⟩

/-- Two datagrams begin at the same time, and the daemon comes by 16 seconds later. -/
def twoExpire : List Event :=
  [.packet 1000 0 (firstFragment 1 [0x46, 0xCE]), .packet 1000 0 (firstFragment 2 [0x46, 0xCD]),
    .timeouts 17000]

/-- The two in their buckets. -/
def twoHeld : Option State := Machine.run (step plainConfig) (some {}) (twoExpire.take 2)

theorem twoHeld_isSome : twoHeld.isSome = true := by decide +kernel

/-- **The claim fails**: the daemon frees one of them and leaves the other in its bucket. -/
theorem second_bucket_stays :
    ¬ ∀ (cfg : Config) (evs : List Event),
      Machine.Always (step cfg) (LifecycleLaw cfg) (some {}) evs := by
  intro h
  obtain ⟨-, -, h, -⟩ := h plainConfig twoExpire
  have hx : Expired plainConfig 17000 (book (twoHeld.get twoHeld_isSome) 1) :=
    ⟨by decide +kernel, 0, by decide, by decide +kernel, by decide +kernel⟩
  have hfreed := ((h _ (Option.get_mem twoHeld_isSome)).2 _ rfl).2 1 hx
  exact absurd hfreed.1 (by decide +kernel)

end Watt32.Frag
