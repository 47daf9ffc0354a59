import Watt32.Ip.Buckets
import Watt32.Ip.Marks
import Watt32.Lib.Linked

/-!
# The list of holes

The records in a buffer, and what a turn of the loop of `ip4_defragment` does to them as long as they
do not meet each other.

* `readHole_putNext`, `readHole_putNext_of_sep` and the like: a record after a write.
* `visit_before`, `visit_first`, `visit_behind` and the like: a turn of the loop in each case.
* `mark`: what a record says.
* `HoleList`: records linked in a buffer, away from each other and from what has come.
* `records`: the records that a pointer leads to; `HoleList.records_eq`.
-/

namespace Watt32.Frag

variable {cfg : Config} {m : ℕ → Byte} {a c : ℕ} {d : Dword} {n : ℤ}

/-- The `n` bytes from `a` on and the `k` bytes from `c` on do not meet. -/
def Apart (a n c k : ℕ) : Prop := n = 0 ∨ k = 0 ∨ a + n ≤ c ∨ c + k ≤ a

/-- The `n` bytes from `a` on lie in `huge_ip.data`. -/
def InData (cfg : Config) (a n : ℕ) : Prop :=
  n = 0 ∨ sizeofHeader ≤ a ∧ a + n ≤ sizeofHeader + cfg.maxFragSize

/-! ## Records in memory -/

theorem le32_put32 : le32 (put32 m a d) a = d := by
  have h0 : put32 m a d a = d.extractLsb' 0 8 := Mem.put_of_mem (i := 0) (l := bytes32 d) (by simp [bytes32])
  have h1 : put32 m a d (a + 1) = d.extractLsb' 8 8 := Mem.put_of_mem (l := bytes32 d) (by simp [bytes32])
  have h2 : put32 m a d (a + 2) = d.extractLsb' 16 8 := Mem.put_of_mem (l := bytes32 d) (by simp [bytes32])
  have h3 : put32 m a d (a + 3) = d.extractLsb' 24 8 := Mem.put_of_mem (l := bytes32 d) (by simp [bytes32])
  have e₁ : d.extractLsb' 24 8 ++ d.extractLsb' 16 8 = d.extractLsb' 16 16 :=
    BitVec.extractLsb'_append_extractLsb'_eq_extractLsb' rfl
  have e₂ : d.extractLsb' 16 16 ++ d.extractLsb' 8 8 = d.extractLsb' 8 24 :=
    BitVec.extractLsb'_append_extractLsb'_eq_extractLsb' rfl
  have e₃ : d.extractLsb' 8 24 ++ d.extractLsb' 0 8 = d.extractLsb' 0 32 :=
    BitVec.extractLsb'_append_extractLsb'_eq_extractLsb' rfl
  rw [le32, h0, h1, h2, h3, e₁]
  exact (congrArg (· ++ d.extractLsb' 0 8) e₂).trans (e₃.trans BitVec.extractLsb'_eq_self)

theorem le32_put32_of_apart {p : ℕ} (h : a + 4 ≤ p ∨ p + 4 ≤ a) : le32 (put32 m a d) p = le32 m p := by
  have hp : ∀ i < 4, put32 m a d (p + i) = m (p + i) := by
    intro i hi
    rcases h with h | h
    · exact Mem.put_of_ge (by simp [bytes32]; omega)
    · exact Mem.put_of_lt (by omega)
  have h0 : put32 m a d p = m p := hp 0 (by decide)
  rw [le32, le32, hp 1 (by decide), hp 2 (by decide), hp 3 (by decide), h0]

/-- The places of two records do not meet. -/
def Sep (a c : ℕ) : Prop := a + sizeofHole ≤ c ∨ c + sizeofHole ≤ a

theorem Sep.symm (h : Sep a c) : Sep c a := Or.symm h

theorem Sep.ne (h : Sep a c) : a ≠ c := by
  unfold Sep sizeofHole at h; omega

@[simp] theorem readHole_putNext : readHole (putNext m a d) a = { readHole m a with next := d } := by
  simp only [readHole, putNext, le32_put32, Hole.mk.injEq, true_and]
  exact ⟨le32_put32_of_apart (by omega), le32_put32_of_apart (by omega)⟩

@[simp] theorem readHole_putStart :
    readHole (putStart m a n) a = { readHole m a with start := BitVec.ofInt 32 n } := by
  simp only [readHole, putStart, le32_put32, Hole.mk.injEq, true_and]
  exact ⟨le32_put32_of_apart (by omega), le32_put32_of_apart (by omega)⟩

@[simp] theorem readHole_putEnd :
    readHole (putEnd m a n) a = { readHole m a with fin := BitVec.ofInt 32 n } := by
  simp only [readHole, putEnd, le32_put32, Hole.mk.injEq, and_true]
  exact ⟨le32_put32_of_apart (by omega), le32_put32_of_apart (by omega)⟩

/-- A field of a record is written: other records stay. -/
theorem readHole_put32 {k : ℕ} (hk : k ≤ 8) (h : Sep a c) :
    readHole (put32 m (a + k) d) c = readHole m c := by
  unfold Sep sizeofHole at h
  simp only [readHole, Hole.mk.injEq]
  refine ⟨?_, ?_, ?_⟩ <;> exact le32_put32_of_apart (by omega)

theorem readHole_putNext_of_sep (h : Sep a c) : readHole (putNext m a d) c = readHole m c :=
  readHole_put32 (k := 0) (by decide) h

theorem readHole_putStart_of_sep (h : Sep a c) : readHole (putStart m a n) c = readHole m c :=
  readHole_put32 (by decide) h

theorem readHole_putEnd_of_sep (h : Sep a c) : readHole (putEnd m a n) c = readHole m c :=
  readHole_put32 (by decide) h

/-- Bytes are written away from a record. -/
theorem readHole_congr {m' : ℕ → Byte} (h : ∀ i < sizeofHole, m' (a + i) = m (a + i)) :
    readHole m' a = readHole m a := by
  have h' : ∀ k ≤ 8, le32 m' (a + k) = le32 m (a + k) := by
    intro k hk
    have hi : ∀ i < 4, m' (a + k + i) = m (a + k + i) := by
      intro i hi
      have := h (k + i) (by unfold sizeofHole; omega)
      rwa [← Nat.add_assoc] at this
    have h0 : m' (a + k) = m (a + k) := hi 0 (by decide)
    rw [le32, le32, hi 1 (by decide), hi 2 (by decide), hi 3 (by decide), h0]
  have h0 : le32 m' a = le32 m a := h' 0 (by decide)
  rw [readHole, readHole, h0, h' 4 (by decide), h' 8 (by decide)]

/-- What the record at `a` says of its hole. -/
def mark (m : ℕ → Byte) (a : ℕ) : Mark := ⟨a, (readHole m a).start.toInt, (readHole m a).fin.toInt⟩

theorem mark_congr {m' : ℕ → Byte} (h : readHole m' a = readHole m a) : mark m' a = mark m a := by
  rw [mark, mark, h]

@[simp] theorem mark_putNext : mark (putNext m a d) a = mark m a := by simp only [mark, readHole_putNext]

/-! ## One turn -/

variable {start fin : ℤ} {hip D : ℕ} {w : Walk} {p : ℕ}

theorem visit_untouched (h : ¬ (mark w.mem w.hole).Touches start fin) : visit hip D start fin w = w := if_neg h

theorem visit_touched (h : (mark w.mem w.hole).Touches start fin) : visit hip D start fin w =
    cutAfter hip D fin (readHole w.mem w.hole).fin.toInt (cutBefore start { w with gotHole := true }) :=
  if_pos h

theorem not_start_lt (h : (mark m a).Covers start fin) : ¬ (readHole m a).start.toInt < start := not_lt.mpr h.2

/-- A hole that begins before the fragment is cut there; it is not looked at what is behind. -/
theorem visit_before (h : (mark w.mem w.hole).Touches start fin) (hs : (readHole w.mem w.hole).start.toInt < start)
    (h0 : 0 ≤ start) (h1 : start ≤ 2 ^ 31) (hf : start ≤ fin) :
    visit hip D start fin w =
      { w with
        mem := putEnd w.mem w.hole (start - 1), prev := some w.hole, gotHole := true
        writes := w.writes ++ [w.hole] } := by
  have hint : (BitVec.ofInt 32 (start - 1)).toInt = start - 1 := by
    rw [BitVec.toInt_ofInt, Int.bmod_eq_of_le (by omega) (by omega)]
  rw [visit_touched h, cutBefore, if_pos hs, cutAfter]
  exact if_neg (by simp only [readHole_putEnd, hint]; omega)

/-- The first record is taken off. -/
theorem visit_first (h : (mark w.mem w.hole).Covers start fin) (hp : w.prev = none)
    (hr : ¬ (mark w.mem w.hole).LeavesRest start fin) :
    visit hip D start fin w = { w with first := (readHole w.mem w.hole).next, gotHole := true } := by
  rw [visit_touched h.1, cutBefore, if_neg (not_start_lt h)]
  simp only [hp]
  exact if_neg fun hlt => hr ⟨h, hlt⟩

/-- The place of the record for a rest. -/
def restPlace (D : ℕ) (fin : ℤ) : ℕ := (D + fin + 1).toNat

/-- The memory with the record for a rest that ends at `n`. -/
def putRest (m : ℕ → Byte) (D : ℕ) (fin n : ℤ) : ℕ → Byte :=
  putEnd (putStart m (restPlace D fin) (fin + 1)) (restPlace D fin) n

/-- The first record is taken off, and one for the rest put in. -/
theorem visit_first_rest (h : (mark w.mem w.hole).LeavesRest start fin) (hp : w.prev = none) :
    visit hip D start fin w =
      { w with
        mem := putNext (putRest w.mem D fin (readHole w.mem w.hole).fin.toInt) (restPlace D fin)
          (readHole w.mem w.hole).next
        first := ptr hip (restPlace D fin), hole := restPlace D fin, gotHole := true
        writes := w.writes ++ [restPlace D fin] } := by
  rw [visit_touched h.1.1, cutBefore, if_neg (not_start_lt h.1)]
  simp only [hp]
  exact if_pos h.2

/-- A record is taken off behind `p`. -/
theorem visit_behind (h : (mark w.mem w.hole).Covers start fin) (hp : w.prev = some p) (hs : Sep p w.hole)
    (hr : ¬ (mark w.mem w.hole).LeavesRest start fin) :
    visit hip D start fin w =
      { w with
        mem := putNext w.mem p (readHole w.mem w.hole).next, gotHole := true
        writes := w.writes ++ [p] } := by
  rw [visit_touched h.1, cutBefore, if_neg (not_start_lt h)]
  simp only [hp]
  refine if_neg fun hlt => hr ⟨h, ?_⟩
  simpa only [readHole_putNext_of_sep hs, mark] using hlt

theorem readHole_putRest_of_sep {n : ℤ} (h : Sep (restPlace D fin) c) :
    readHole (putRest m D fin n) c = readHole m c := by
  rw [putRest, readHole_putEnd_of_sep h, readHole_putStart_of_sep h]

theorem cutAfter_rest {lastEnd : ℤ} (hp : w.prev = some p) (hlt : fin < (readHole w.mem w.hole).fin.toInt)
    (hN : Sep (restPlace D fin) p) :
    cutAfter hip D fin lastEnd w =
      { w with
        mem := putNext (putNext (putRest w.mem D fin lastEnd) (restPlace D fin) (readHole w.mem p).next) p
          (ptr hip (restPlace D fin))
        hole := restPlace D fin, writes := w.writes ++ [restPlace D fin, p] } := by
  have hnext : (readHole w.mem p).next = le32 (putRest w.mem D fin lastEnd) p :=
    congrArg Hole.next (readHole_putRest_of_sep hN).symm
  rw [cutAfter, if_pos hlt, hnext]
  simp only [hp]
  rfl

/-- A record is taken off behind `p`, and one for the rest put in. -/
theorem visit_behind_rest (h : (mark w.mem w.hole).LeavesRest start fin) (hp : w.prev = some p)
    (hs : Sep p w.hole) (hN : Sep (restPlace D fin) p) :
    visit hip D start fin w =
      { w with
        mem := putNext (putNext (putRest (putNext w.mem p (readHole w.mem w.hole).next) D fin
            (readHole w.mem w.hole).fin.toInt) (restPlace D fin) (readHole w.mem w.hole).next) p
          (ptr hip (restPlace D fin))
        hole := restPlace D fin, gotHole := true
        writes := w.writes ++ [p, restPlace D fin, p] } := by
  rw [visit_touched h.1.1, cutBefore, if_neg (not_start_lt h.1)]
  simp only [hp]
  rw [cutAfter_rest rfl (by simpa only [readHole_putNext_of_sep hs, mark] using h.2) hN]
  simp only [readHole_putNext, List.append_assoc, List.singleton_append]

theorem toInt_ofInt_of_lt {n k : ℤ} (h₀ : 0 ≤ n) (h₁ : n ≤ k) (hk : k < 2 ^ 31) : (BitVec.ofInt 32 n).toInt = n := by
  rw [BitVec.toInt_ofInt, Int.bmod_eq_of_le (by omega) (by omega)]

/-- The record for a rest. -/
theorem mark_rest {e : Dword} {q : Dword} (h : 0 ≤ fin) (he : fin < e.toInt) :
    mark (putNext (putRest m D fin e.toInt) (restPlace D fin) q) (restPlace D fin) =
      ⟨restPlace D fin, fin + 1, e.toInt⟩ := by
  have hlt := e.toInt_lt
  simp only [mark, putRest, readHole_putNext, readHole_putEnd, readHole_putStart, BitVec.ofInt_toInt]
  rw [toInt_ofInt_of_lt (by omega) he (by omega)]

/-! ## The list -/

/-- What has come into a buffer: places and lengths. -/
abbrev Got := List (ℕ × ℕ)

/-- A place for a record: in the data, and away from what has come. -/
def Good (cfg : Config) (got : Got) (a : ℕ) : Prop :=
  InData cfg a sizeofHole ∧ ∀ x ∈ got, Apart a sizeofHole x.1 x.2

/-- The records `l` are linked from `first` on, each at a good place and away from the others. -/
structure HoleList (cfg : Config) (b : Bucket) (got : Got) (m : ℕ → Byte) (first : Dword) (l : List ℕ) :
    Prop where
  path : Linked.Path (fun a => (readHole m a).next) (ptr (cfg.hip b)) first l 0
  good : ∀ a ∈ l, Good cfg got a
  sep : l.Pairwise Sep

variable {b : Bucket} {got : Got} {first : Dword} {l P R : List ℕ} {stale stale' : Bool}

/-- Each record is away from all others. -/
theorem HoleList.sep_of_mem (h : HoleList cfg b got m first (P ++ a :: R)) : ∀ c ∈ P ++ R, Sep a c := by
  have := (List.pairwise_middle Sep.symm).mp h.sep
  exact (List.pairwise_cons.mp this).1

/-- Without one of them. -/
theorem HoleList.erase {m' : ℕ → Byte} {first' : Dword} (h : HoleList cfg b got m first (P ++ a :: R))
    (hp : Linked.Path (fun a => (readHole m' a).next) (ptr (cfg.hip b)) first' (P ++ R) 0) :
    HoleList cfg b got m' first' (P ++ R) where
  path := hp
  good c hc := h.good c (by simp only [List.mem_append, List.mem_cons] at hc ⊢; tauto)
  sep := (List.pairwise_cons.mp ((List.pairwise_middle Sep.symm).mp h.sep)).2

/-- With another one in its place. -/
theorem HoleList.exchange {m' : ℕ → Byte} {first' : Dword} (h : HoleList cfg b got m first (P ++ a :: R))
    (hc : Good cfg got c) (hs : ∀ e ∈ P ++ R, Sep c e)
    (hp : Linked.Path (fun a => (readHole m' a).next) (ptr (cfg.hip b)) first' (P ++ c :: R) 0) :
    HoleList cfg b got m' first' (P ++ c :: R) where
  path := hp
  good e he := by
    rcases List.mem_append.mp he with he | he
    · exact h.good e (List.mem_append_left _ he)
    · rcases List.mem_cons.mp he with rfl | he
      · exact hc
      · exact h.good e (by simp [he])
  sep := (List.pairwise_middle Sep.symm).mpr (List.pairwise_cons.mpr ⟨hs,
    (List.pairwise_cons.mp ((List.pairwise_middle Sep.symm).mp h.sep)).2⟩)

/-- When no pointer in it changes. -/
theorem HoleList.congr {m' : ℕ → Byte} (h : HoleList cfg b got m first l)
    (hn : ∀ a ∈ l, (readHole m' a).next = (readHole m a).next) : HoleList cfg b got m' first l where
  path := h.path.congr hn
  good := h.good
  sep := h.sep

theorem ptr_toNat (h : InData cfg a sizeofHole) : (ptr (cfg.hip b) a).toNat = cfg.hip b + a := by
  have h := h.resolve_left (by decide)
  have := cfg.hip_le b
  have hm : cfg.maxFragSize = cfg.maxFragments * maxIp4Data := rfl
  unfold sizeofHole at h
  rw [ptr, BitVec.toNat_ofNat, Nat.mod_eq_of_lt (by omega)]

theorem ptr_ne_zero (h : InData cfg a sizeofHole) : ptr (cfg.hip b) a ≠ 0 := by
  intro h0
  have ha := ptr_toNat (b := b) h
  have hz : (0 : Dword).toNat = 0 := rfl
  rw [h0, hz] at ha
  have := cfg.hip_pos b
  omega

theorem deref_ptr (h : InData cfg a sizeofHole) : cfg.deref b (ptr (cfg.hip b) a) = some a := by
  have ha := ptr_toNat (b := b) h
  have h := h.resolve_left (by decide)
  rw [Config.deref, ha, if_pos ⟨by omega, by unfold Config.sizeofHuge; omega⟩]
  simp

/-- The records from the pointer `p` on, `fuel` at most. -/
def records (cfg : Config) (b : Bucket) (m : ℕ → Byte) : (fuel : ℕ) → (p : Dword) → List ℕ
  | 0, _ => []
  | fuel + 1, p =>
    if p = 0 then []
    else
      match cfg.deref b p with
      | none => []
      | some a => a :: records cfg b m fuel (readHole m a).next

/-- A list of records is not longer than the buffer. -/
theorem HoleList.length_le (h : HoleList cfg b got m first l) : l.length ≤ cfg.sizeofHuge := by
  have hn : l.Nodup := h.sep.imp Sep.ne
  have hs : l ⊆ List.range cfg.sizeofHuge := by
    intro a ha
    have := ((h.good a ha).1.resolve_left (by decide)).2
    rw [List.mem_range]
    unfold Config.sizeofHuge sizeofHole at *
    omega
  simpa using (hn.subperm hs).length_le

/-- They are those of the list. -/
theorem HoleList.records_eq (h : HoleList cfg b got m first l) {fuel : ℕ} (hf : l.length ≤ fuel) :
    records cfg b m fuel first = l := by
  obtain ⟨hpath, hgood, hsep⟩ := h
  induction l generalizing first fuel with
  | nil =>
    have h0 : first = 0 := hpath
    cases fuel with
    | zero => rfl
    | succ fuel => rw [records, if_pos h0]
  | cons a l ih =>
    obtain ⟨fuel, rfl⟩ := Nat.exists_eq_succ_of_ne_zero (Nat.ne_of_gt (Nat.zero_lt_of_lt hf))
    have ha := (hgood a List.mem_cons_self).1
    rw [records, hpath.1, if_neg (ptr_ne_zero ha), deref_ptr ha]
    dsimp only
    rw [ih (by simpa using hf) hpath.2 (fun c hc => hgood c (List.mem_cons_of_mem _ hc))
      (List.pairwise_cons.mp hsep).2]

end Watt32.Frag
