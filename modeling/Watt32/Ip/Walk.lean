import Watt32.Ip.Holes

/-!
# The loop over the holes

What the loop of `ip4_defragment` makes of the records in a buffer, as long as they do not meet each
other and there is a place for the record of a rest.

* `WalkInv`: the records behind and ahead of a turn.
* `WalkInv.keep`, `WalkInv.takeOff`, `WalkInv.exchange`: what a turn can do to a record.
* **`WalkInv.visit`**, **`WalkInv.walk`**: a turn and the loop; the list that is left holds what
  `leftOver` says.
* `walk_of_not_record`: other bytes stay as they are.
-/

namespace Watt32.Frag

variable {cfg : Config} {b : Bucket} {got : Got} {m : ℕ → Byte} {a c D p : ℕ} {start fin : ℤ} {w w' : Walk}
  {l P P' R : List ℕ} {stale : Bool}

/-- The walk before the record that `R` begins with, the records `P` of the list behind it: what is
ahead is as it was in `m`. `prev_hole` is the last of `P`, or a record that is not in the list. A
rest may be left by one of the records ahead, and there is a place for its record. -/
structure WalkInv (cfg : Config) (b : Bucket) (got : Got) (m : ℕ → Byte) (D : ℕ) (start fin : ℤ)
    (w : Walk) (P R : List ℕ) (stale : Bool) : Prop where
  list : HoleList cfg b got w.mem w.first (P ++ R)
  same : ∀ a ∈ R, readHole w.mem a = readHole m a
  fresh : stale = false → w.prev = P.getLast?
  dead : stale = true → ∃ d, w.prev = some d ∧ Good cfg got d ∧ ∀ a ∈ P ++ R, Sep d a
  rest : ∀ a ∈ R, (mark m a).LeavesRest start fin → Good cfg got (restPlace D fin) ∧
    (∀ c ∈ P ++ R, c ≠ a → Sep (restPlace D fin) c) ∧ ∀ d, w.prev = some d → Sep (restPlace D fin) d
  one : ∀ a ∈ R, ∀ c ∈ R, (mark m a).LeavesRest start fin → (mark m c).LeavesRest start fin → a = c
  stay : ∀ k ∈ stays start fin stale (R.map (mark m)), k.LeavesRest start fin → Sep (restPlace D fin) k.place
  writes : ∀ a ∈ w.writes, Good cfg got a

/-- What a turn has to show. -/
theorem WalkInv.next (h : WalkInv cfg b got m D start fin w P (a :: R) stale)
    (hlist : HoleList cfg b got w'.mem w'.first (P' ++ R))
    (hsame : ∀ c ∈ R, readHole w'.mem c = readHole w.mem c)
    (hP : ∀ c ∈ P', c ∈ P ∨ c = a ∨ (mark m a).LeavesRest start fin)
    (hhole : w'.hole = a ∨ (mark m a).LeavesRest start fin)
    (hfresh : (mark m a).staleAfter start fin stale = false → some w'.hole = P'.getLast?)
    (hdead : (mark m a).staleAfter start fin stale = true →
      Good cfg got w'.hole ∧ ∀ c ∈ P' ++ R, Sep w'.hole c)
    (hwrites : ∀ c ∈ w'.writes, Good cfg got c) :
    WalkInv cfg b got m D start fin { w' with prev := some w'.hole } P' R
      ((mark m a).staleAfter start fin stale) where
  list := hlist
  same c hc := (hsame c hc).trans (h.same c (List.mem_cons_of_mem _ hc))
  fresh := hfresh
  dead hs := ⟨_, rfl, hdead hs⟩
  rest c hc hr := by
    have hca : a ≠ c := (h.list.sep_of_mem c (List.mem_append_right _ hc)).ne
    have hna : ¬ (mark m a).LeavesRest start fin := fun ha =>
      hca (h.one a List.mem_cons_self c (List.mem_cons_of_mem _ hc) ha hr)
    obtain ⟨hg, hs, -⟩ := h.rest c (List.mem_cons_of_mem _ hc) hr
    have ha : Sep (restPlace D fin) a := hs a (by simp) hca
    refine ⟨hg, fun e he hec => ?_, fun d hd => ?_⟩
    · rcases List.mem_append.mp he with he | he
      · rcases hP e he with he | rfl | hl
        · exact hs e (List.mem_append_left _ he) hec
        · exact ha
        · exact absurd hl hna
      · exact hs e (by simp [he]) hec
    · obtain rfl := Option.some.inj hd
      rcases hhole with hh | hl
      · rw [hh]; exact ha
      · exact absurd hl hna
  one c hc e he := h.one c (List.mem_cons_of_mem _ hc) e (List.mem_cons_of_mem _ he)
  stay c hc := h.stay c (List.mem_append_right _ hc)
  writes := hwrites

/-- The places of what a turn at `a` leaves behind it. -/
def behind (m : ℕ → Byte) (start fin : ℤ) (N : ℕ) (stale : Bool) (a : ℕ) : List ℕ :=
  ((mark m a).left N start fin stale).map Mark.place

/-- What a turn at `a` comes to. -/
structure Turn (cfg : Config) (b : Bucket) (got : Got) (m : ℕ → Byte) (D : ℕ) (start fin : ℤ)
    (w w' : Walk) (P R : List ℕ) (stale : Bool) (a : ℕ) : Prop where
  inv : WalkInv cfg b got m D start fin { w' with prev := some w'.hole }
    (P ++ behind m start fin (restPlace D fin) stale a) R ((mark m a).staleAfter start fin stale)
  path : Linked.Path (fun c => (readHole w'.mem c).next) (ptr (cfg.hip b)) (readHole w'.mem w'.hole).next R 0
  marks : (P ++ behind m start fin (restPlace D fin) stale a).map (mark w'.mem) =
    P.map (mark w.mem) ++ (mark m a).left (restPlace D fin) start fin stale
  got : w'.gotHole = true ↔ w.gotHole = true ∨ (mark m a).Touches start fin

/-- The marks behind a turn that keeps those of `P`. -/
theorem marks_append {N : ℕ} (hP : ∀ c ∈ P, mark w'.mem c = mark w.mem c)
    (hb : ∀ k ∈ (mark m a).left N start fin stale, mark w'.mem k.place = k) :
    (P ++ behind m start fin N stale a).map (mark w'.mem) =
      P.map (mark w.mem) ++ (mark m a).left N start fin stale := by
  rw [List.map_append, List.map_congr_left hP, behind, List.map_map]
  exact congrArg _ ((List.map_congr_left hb).trans (List.map_id _))

/-- The record stays, and `prev_hole` is it. -/
theorem WalkInv.keep (h : WalkInv cfg b got m D start fin w P (a :: R) stale)
    (hleft : (mark m a).left (restPlace D fin) start fin stale = [mark w'.mem a])
    (hst : (mark m a).staleAfter start fin stale = false) (ha : w'.hole = a) (hfirst : w'.first = w.first)
    (hnext : (readHole w'.mem a).next = (readHole w.mem a).next)
    (hsame : ∀ c ∈ P ++ R, readHole w'.mem c = readHole w.mem c)
    (hwrites : ∀ c ∈ w'.writes, Good cfg got c)
    (hgot : w'.gotHole = true ↔ w.gotHole = true ∨ (mark m a).Touches start fin) :
    Turn cfg b got m D start fin w w' P R stale a := by
  have hb : behind m start fin (restPlace D fin) stale a = [a] := by
    rw [behind, hleft]
    rfl
  have hR : ∀ c ∈ R, readHole w'.mem c = readHole w.mem c := fun c hc => hsame c (List.mem_append_right _ hc)
  refine ⟨?_, ?_, ?_, hgot⟩
  · rw [hb]
    refine h.next ?_ hR ?_ (.inl ha) ?_ ?_ hwrites
    · rw [hfirst, List.append_assoc]
      refine h.list.congr fun c hc => ?_
      by_cases hca : c = a
      · rw [hca, hnext]
      · rw [hsame c (by simp only [List.mem_append, List.mem_cons] at hc ⊢; tauto)]
    · intro c hc
      rcases List.mem_append.mp hc with hc | hc
      · exact .inl hc
      · exact .inr (.inl (List.mem_singleton.mp hc))
    · intro _
      rw [List.getLast?_concat, ha]
    · intro hst'
      simp [hst] at hst'
  · rw [ha, hnext]
    exact h.list.path.split.2.congr fun c hc => congrArg Hole.next (hR c hc)
  · refine marks_append (fun c hc => mark_congr (hsame c (List.mem_append_left _ hc))) fun k hk => ?_
    rw [hleft] at hk
    rw [List.mem_singleton.mp hk]
    rfl

/-- The record is taken off without a rest, and `prev_hole` is it still. -/
theorem WalkInv.takeOff (h : WalkInv cfg b got m D start fin w P (a :: R) false)
    (hc : (mark m a).Covers start fin) (hr : ¬ (mark m a).LeavesRest start fin) (ha : w'.hole = a)
    (hpath : Linked.Path (fun c => (readHole w'.mem c).next) (ptr (cfg.hip b)) w'.first (P ++ R) 0)
    (hmarks : ∀ c ∈ P, mark w'.mem c = mark w.mem c)
    (hsame : ∀ c ∈ a :: R, readHole w'.mem c = readHole w.mem c)
    (hwrites : ∀ c ∈ w'.writes, Good cfg got c) (hgot : w'.gotHole = true) :
    Turn cfg b got m D start fin w w' P R false a := by
  have hleft : (mark m a).left (restPlace D fin) start fin false = [] := Mark.left_nil hc hr
  have hb : P ++ behind m start fin (restPlace D fin) false a = P := by
    rw [behind, hleft, List.map_nil, List.append_nil]
  have hst : (mark m a).staleAfter start fin false = true := decide_eq_true ⟨hc, by simp [hr]⟩
  refine ⟨?_, ?_, ?_, ?_⟩
  · rw [hb]
    refine h.next (h.list.erase hpath) (fun c hc => hsame c (List.mem_cons_of_mem _ hc))
      (fun c hc => .inl hc) (.inl ha) (fun hf => ?_) (fun _ => ?_) hwrites
    · simp [hst] at hf
    · rw [ha]
      exact ⟨h.list.good a (by simp), h.list.sep_of_mem⟩
  · rw [ha, hsame a List.mem_cons_self]
    exact h.list.path.split.2.congr fun c hc =>
      congrArg Hole.next (hsame c (List.mem_cons_of_mem _ hc))
  · refine marks_append hmarks fun k hk => ?_
    rw [hleft] at hk
    exact absurd hk List.not_mem_nil
  · simp [hgot, hc.1]

/-- The record is taken off, and one for the rest put in its place; `prev_hole` is that one. -/
theorem WalkInv.exchange (h : WalkInv cfg b got m D start fin w P (a :: R) false)
    (hr : (mark m a).LeavesRest start fin) (ha : w'.hole = restPlace D fin)
    (hpath : Linked.Path (fun c => (readHole w'.mem c).next) (ptr (cfg.hip b)) w'.first
      (P ++ restPlace D fin :: R) 0)
    (hmarks : ∀ c ∈ P, mark w'.mem c = mark w.mem c)
    (hnew : mark w'.mem (restPlace D fin) = ⟨restPlace D fin, fin + 1, (mark m a).fin⟩)
    (hsame : ∀ c ∈ R, readHole w'.mem c = readHole w.mem c)
    (hwrites : ∀ c ∈ w'.writes, Good cfg got c) (hgot : w'.gotHole = true) :
    Turn cfg b got m D start fin w w' P R false a := by
  have hleft := Mark.left_rest (N := restPlace D fin) hr
  have hb : behind m start fin (restPlace D fin) false a = [restPlace D fin] := by
    rw [behind, hleft]
    rfl
  have hst : (mark m a).staleAfter start fin false = false := decide_eq_false fun h => by simp [hr] at h
  obtain ⟨hg, hs, -⟩ := h.rest a List.mem_cons_self hr
  have hsN : ∀ c ∈ P ++ R, Sep (restPlace D fin) c := fun c hc =>
    hs c (by simp only [List.mem_append, List.mem_cons] at hc ⊢; tauto) (h.list.sep_of_mem c hc).ne.symm
  refine ⟨?_, ?_, ?_, ?_⟩
  · rw [hb]
    refine h.next ?_ hsame ?_ (.inr hr) ?_ ?_ hwrites
    · rw [List.append_assoc]
      exact h.list.exchange hg hsN hpath
    · intro c hc
      rcases List.mem_append.mp hc with hc | hc
      · exact .inl hc
      · exact .inr (.inr hr)
    · intro _
      rw [List.getLast?_concat, ha]
    · intro hst'
      simp [hst] at hst'
  · rw [ha]
    exact hpath.split.2
  · refine marks_append hmarks fun k hk => ?_
    rw [hleft] at hk
    rw [List.mem_singleton.mp hk]
    exact hnew
  · simp [hgot, hr.1.1]

/-- What the walk reads at the record is what was there before. -/
theorem WalkInv.reads (h : WalkInv cfg b got m D start fin w P (a :: R) stale) :
    mark w.mem a = mark m a := mark_congr (h.same a List.mem_cons_self)

/-- A record that is written to is good when those it was added to are. -/
theorem good_append {l l' : List ℕ} (h : ∀ c ∈ l, Good cfg got c) (h' : ∀ c ∈ l', Good cfg got c) :
    ∀ c ∈ l ++ l', Good cfg got c := fun c hc => (List.mem_append.mp hc).elim (h c) (h' c)

/-- A turn at a hole that begins before the fragment or does not meet it. -/
theorem WalkInv.visit_uncovered (h : WalkInv cfg b got m D start fin w P (a :: R) stale) (ha : w.hole = a)
    (h0 : 0 ≤ start) (h1 : start ≤ 2 ^ 31) (hf : start ≤ fin) (hc : ¬ (mark m a).Covers start fin) :
    Turn cfg b got m D start fin w (visit (cfg.hip b) D start fin w) P R stale a := by
  have hst := Mark.staleAfter_of_not_covers stale hc
  have hsep := h.list.sep_of_mem
  subst ha
  have hread := h.reads
  by_cases ht : (mark m w.hole).Touches start fin
  · have hlt : (mark m w.hole).start < start := not_le.mp fun hle => hc ⟨ht, hle⟩
    have hleft := Mark.left_of_before (N := restPlace D fin) stale ht hlt
    rw [← hread] at ht hlt hleft
    rw [visit_before ht hlt h0 h1 hf]
    refine h.keep ?_ hst rfl rfl ?_ ?_ ?_ (by simp [← hread, ht])
    · rw [← hread, hleft]
      simp only [mark, readHole_putEnd]
      rw [BitVec.toInt_ofInt, Int.bmod_eq_of_le (by omega) (by omega)]
    · rw [readHole_putEnd]
    · exact fun c hc => readHole_putEnd_of_sep (hsep c hc)
    · exact good_append h.writes (by simpa using h.list.good w.hole (by simp))
  · have hleft := Mark.left_of_not_touches (N := restPlace D fin) stale ht
    rw [← hread] at ht hleft
    rw [visit_untouched ht]
    refine h.keep ?_ hst rfl rfl rfl (fun _ _ => rfl) h.writes (by simp [← hread, ht])
    rw [← hread, hleft]

/-- A turn at the first record of the list. -/
theorem WalkInv.visit_head (h : WalkInv cfg b got m D start fin w [] (a :: R) false) (ha : w.hole = a)
    (hfin : 0 ≤ fin) (hc : (mark m a).Covers start fin) :
    Turn cfg b got m D start fin w (visit (cfg.hip b) D start fin w) [] R false a := by
  subst ha
  have hread := h.reads
  have hprev : w.prev = none := h.fresh rfl
  by_cases hr : (mark m w.hole).LeavesRest start fin
  · rw [visit_first_rest (by rwa [hread]) hprev]
    obtain ⟨hg, hs, -⟩ := h.rest w.hole List.mem_cons_self hr
    have hN : ∀ c ∈ R, readHole (putNext (putRest w.mem D fin (readHole w.mem w.hole).fin.toInt)
        (restPlace D fin) (readHole w.mem w.hole).next) c = readHole w.mem c := by
      intro c hcR
      have := hs c (List.mem_cons_of_mem _ hcR) (h.list.sep_of_mem c hcR).ne.symm
      rw [readHole_putNext_of_sep this, readHole_putRest_of_sep this]
    refine h.exchange hr rfl ⟨rfl, ?_⟩ (by simp) ?_ hN (good_append h.writes (by simpa using hg)) rfl
    · dsimp only
      rw [readHole_putNext]
      exact h.list.path.2.congr fun c hcR => congrArg Hole.next (hN c hcR)
    · rw [← hread] at hr ⊢
      exact mark_rest hfin hr.2
  · rw [visit_first (by rwa [hread]) hprev (by rwa [hread])]
    exact h.takeOff hc hr rfl h.list.path.2 (by simp) (fun _ _ => rfl) h.writes rfl

/-- A turn at a record behind `p`. -/
theorem WalkInv.visit_next (h : WalkInv cfg b got m D start fin w (P ++ [p]) (a :: R) false) (ha : w.hole = a)
    (hfin : 0 ≤ fin) (hc : (mark m a).Covers start fin) :
    Turn cfg b got m D start fin w (visit (cfg.hip b) D start fin w) (P ++ [p]) R false a := by
  subst ha
  have hread := h.reads
  have hprev : w.prev = some p := (h.fresh rfl).trans List.getLast?_concat
  have hl := h.list
  rw [List.append_assoc, List.singleton_append] at hl
  have hpsep : ∀ c ∈ P ++ w.hole :: R, Sep p c := hl.sep_of_mem
  have hpa : Sep p w.hole := hpsep w.hole (by simp)
  have hpgood : Good cfg got p := hl.good p (by simp)
  have hsame : ∀ c ∈ P ++ w.hole :: R, readHole (putNext w.mem p (readHole w.mem w.hole).next) c =
      readHole w.mem c := fun c hcm => readHole_putNext_of_sep (hpsep c hcm)
  by_cases hr : (mark m w.hole).LeavesRest start fin
  · obtain ⟨hg, hs, hsp⟩ := h.rest w.hole List.mem_cons_self hr
    have hNp := hsp p hprev
    rw [visit_behind_rest (by rwa [hread]) hprev hpa hNp]
    have hN : ∀ c ∈ P ++ R, readHole (putNext (putNext (putRest (putNext w.mem p
        (readHole w.mem w.hole).next) D fin (readHole w.mem w.hole).fin.toInt) (restPlace D fin)
        (readHole w.mem w.hole).next) p (ptr (cfg.hip b) (restPlace D fin))) c = readHole w.mem c := by
      intro c hcm
      have hcm' : c ∈ P ++ w.hole :: R := by simp only [List.mem_append, List.mem_cons] at hcm ⊢; tauto
      have := hs c (by simp only [List.mem_append, List.mem_cons] at hcm ⊢; tauto)
        (h.list.sep_of_mem c (by simp only [List.mem_append] at hcm ⊢; tauto)).ne.symm
      rw [readHole_putNext_of_sep (hpsep c hcm'), readHole_putNext_of_sep this, readHole_putRest_of_sep this,
        hsame c hcm']
    refine h.exchange hr rfl ?_ (fun c hcP => ?_) ?_ (fun c hcR => hN c (List.mem_append_right _ hcR)) ?_ rfl
    · rw [List.append_assoc, List.singleton_append]
      refine hl.path.replace (fun c hcP => congrArg Hole.next (hN c (List.mem_append_left _ hcP)))
        (fun c hcR => congrArg Hole.next (hN c (List.mem_append_right _ hcR))) ?_ ?_
      · rw [readHole_putNext]
      · rw [readHole_putNext_of_sep hNp.symm, readHole_putNext]
    · rcases List.mem_append.mp hcP with hcP | hcP
      · exact mark_congr (hN c (List.mem_append_left _ hcP))
      · rw [List.mem_singleton.mp hcP, mark_putNext, mark_congr (readHole_putNext_of_sep hNp),
          mark_congr (readHole_putRest_of_sep hNp), mark_putNext]
    · rw [mark_congr (readHole_putNext_of_sep hNp.symm)]
      rw [← hread] at hr ⊢
      exact mark_rest hfin hr.2
    · exact good_append h.writes (by simp [hpgood, hg])
  · rw [visit_behind (by rwa [hread]) hprev hpa (by rwa [hread])]
    refine h.takeOff hc hr rfl ?_ (fun c hcP => ?_) (fun c hcm => hsame c (List.mem_append_right _ hcm))
      (good_append h.writes (by simp [hpgood])) rfl
    · rw [List.append_assoc]
      refine hl.path.unlink (fun c hcP => congrArg Hole.next (hsame c (List.mem_append_left _ hcP)))
        (fun c hcR => congrArg Hole.next (hsame c (by simp [hcR]))) ?_
      rw [readHole_putNext]
    · rcases List.mem_append.mp hcP with hcP | hcP
      · exact mark_congr (hsame c (List.mem_append_left _ hcP))
      · rw [List.mem_singleton.mp hcP, mark_putNext]

/-- A turn behind a record that has been taken off: the record stays in the list. -/
theorem WalkInv.visit_stale (h : WalkInv cfg b got m D start fin w P (a :: R) true) (ha : w.hole = a)
    (hc : (mark m a).Covers start fin) :
    Turn cfg b got m D start fin w (visit (cfg.hip b) D start fin w) P R true a := by
  subst ha
  have hread := h.reads
  obtain ⟨d, hprev, hdgood, hd⟩ := h.dead rfl
  have hda : Sep d w.hole := hd w.hole (by simp)
  have hleft : (mark m w.hole).left (restPlace D fin) start fin true = [mark m w.hole] := Mark.left_stale hc
  by_cases hr : (mark m w.hole).LeavesRest start fin
  · obtain ⟨hg, hs, hsd⟩ := h.rest w.hole List.mem_cons_self hr
    have hNd := hsd d hprev
    have hst : (mark m w.hole).staleAfter start fin true = true := decide_eq_true ⟨hc, by simp [hr]⟩
    rw [visit_behind_rest (by rwa [hread]) hprev hda hNd]
    have hNall : ∀ c ∈ P ++ w.hole :: R, Sep (restPlace D fin) c := by
      intro c hcm
      by_cases hca : c = w.hole
      · rw [hca]
        exact h.stay (mark m w.hole) (by simp [stays]) hr
      · exact hs c hcm hca
    have hN : ∀ c ∈ P ++ w.hole :: R, readHole (putNext (putNext (putRest (putNext w.mem d
        (readHole w.mem w.hole).next) D fin (readHole w.mem w.hole).fin.toInt) (restPlace D fin)
        (readHole w.mem w.hole).next) d (ptr (cfg.hip b) (restPlace D fin))) c = readHole w.mem c := by
      intro c hcm
      rw [readHole_putNext_of_sep (hd c hcm), readHole_putNext_of_sep (hNall c hcm),
        readHole_putRest_of_sep (hNall c hcm), readHole_putNext_of_sep (hd c hcm)]
    have hb : behind m start fin (restPlace D fin) true w.hole = [w.hole] := by
      rw [behind, hleft]
      rfl
    refine ⟨?_, ?_, ?_, by simp [hr.1.1]⟩
    · rw [hb]
      refine h.next ?_ (fun c hcR => hN c (by simp [hcR])) (fun c _ => .inr (.inr hr)) (.inr hr) ?_ ?_
        (good_append h.writes (by simp [hdgood, hg]))
      · rw [List.append_assoc]
        exact h.list.congr fun c hcm => congrArg Hole.next (hN c hcm)
      · intro hf
        simp [hst] at hf
      · intro _
        rw [List.append_assoc]
        exact ⟨hg, hNall⟩
    · rw [readHole_putNext_of_sep hNd.symm, readHole_putNext]
      exact h.list.path.split.2.congr fun c hcR => congrArg Hole.next (hN c (by simp [hcR]))
    · refine marks_append (fun c hcP => mark_congr (hN c (by simp [hcP]))) fun k hk => ?_
      rw [hleft] at hk
      rw [List.mem_singleton.mp hk]
      exact (mark_congr (hN w.hole (by simp))).trans hread
  · have hst : (mark m w.hole).staleAfter start fin true = false := decide_eq_false fun h => by simp [hr] at h
    rw [visit_behind (by rwa [hread]) hprev hda (by rwa [hread])]
    have hsame : ∀ c ∈ P ++ w.hole :: R, readHole (putNext w.mem d (readHole w.mem w.hole).next) c =
        readHole w.mem c := fun c hcm => readHole_putNext_of_sep (hd c hcm)
    refine h.keep ?_ hst rfl rfl (congrArg Hole.next (hsame w.hole (by simp)))
      (fun c hcm => hsame c (by simp only [List.mem_append, List.mem_cons] at hcm ⊢; tauto))
      (good_append h.writes (by simp [hdgood])) (by simp [hc.1])
    rw [hleft, mark_congr (hsame w.hole (by simp)), hread]

/-- **A turn of the walk.** -/
theorem WalkInv.visit (h : WalkInv cfg b got m D start fin w P (a :: R) stale) (ha : w.hole = a)
    (h0 : 0 ≤ start) (h1 : start ≤ 2 ^ 31) (hf : start ≤ fin) :
    Turn cfg b got m D start fin w (visit (cfg.hip b) D start fin w) P R stale a := by
  by_cases hc : (mark m a).Covers start fin
  · cases stale with
    | true => exact h.visit_stale ha hc
    | false =>
      rcases List.eq_nil_or_concat P with rfl | ⟨P, p, rfl⟩
      · exact h.visit_head ha (h0.trans hf) hc
      · rw [List.concat_eq_append] at h ⊢
        exact h.visit_next ha (h0.trans hf) hc
  · exact h.visit_uncovered ha h0 h1 hf hc

/-- **The walk** ends at the end of the list. What is then linked is what `leftOver` says; only
records of the list, records taken off it and that of a rest are written. -/
theorem WalkInv.walk {fuel : ℕ} (h : WalkInv cfg b got m D start fin w P (a :: R) stale) (ha : w.hole = a)
    (h0 : 0 ≤ start) (h1 : start ≤ 2 ^ 31) (hf : start ≤ fin) (hfuel : R.length < fuel) :
    ∃ w' l, walk cfg b D start fin fuel w = some w' ∧ HoleList cfg b got w'.mem w'.first l ∧
      l.map (mark w'.mem) = P.map (mark w.mem) ++
        leftOver (restPlace D fin) start fin stale ((a :: R).map (mark m)) ∧
      (∀ c ∈ w'.writes, Good cfg got c) ∧
      (w'.gotHole = true ↔ w.gotHole = true ∨ ∃ k ∈ (a :: R).map (mark m), k.Touches start fin) := by
  induction R generalizing w P a stale fuel with
  | nil =>
    obtain ⟨fuel, rfl⟩ := Nat.exists_eq_succ_of_ne_zero (Nat.ne_of_gt hfuel)
    have ht := h.visit ha h0 h1 hf
    rw [Frag.walk]
    generalize Frag.visit (cfg.hip b) D start fin w = v at ht ⊢
    obtain ⟨hinv, hpath, hmarks, hgot⟩ := ht
    refine ⟨_, _, if_pos hpath, hinv.list, ?_, hinv.writes, by simpa using hgot⟩
    rw [List.append_nil]
    simpa [leftOver] using hmarks
  | cons c R ih =>
    obtain ⟨fuel, rfl⟩ := Nat.exists_eq_succ_of_ne_zero (Nat.ne_of_gt (Nat.zero_lt_of_lt hfuel))
    have hin : InData cfg c sizeofHole := (h.list.good c (by simp)).1
    have ht := h.visit ha h0 h1 hf
    rw [Frag.walk]
    generalize Frag.visit (cfg.hip b) D start fin w = v at ht ⊢
    obtain ⟨hinv, hpath, hmarks, hgot⟩ := ht
    have hnext : le32 v.mem v.hole = ptr (cfg.hip b) c := hpath.1
    have hinv' : WalkInv cfg b got m D start fin { v with prev := some v.hole, hole := c }
        (P ++ behind m start fin (restPlace D fin) stale a) (c :: R) ((mark m a).staleAfter start fin stale) :=
      ⟨hinv.list, hinv.same, hinv.fresh, hinv.dead, hinv.rest, hinv.one, hinv.stay, hinv.writes⟩
    simp only [hnext, if_neg (ptr_ne_zero hin), deref_ptr hin]
    obtain ⟨w', l, hw, hl, hmem, hwr, hg⟩ := ih hinv' rfl (by simpa using hfuel)
    refine ⟨w', l, hw, hl, ?_, hwr, ?_⟩
    · rw [hmem, hmarks, List.append_assoc]
      rfl
    · have hcons : (∃ k ∈ (a :: c :: R).map (mark m), k.Touches start fin) ↔
          (mark m a).Touches start fin ∨ ∃ k ∈ (c :: R).map (mark m), k.Touches start fin :=
        List.exists_mem_cons_iff _ _ _
      rw [hg, hcons, ← or_assoc]
      exact or_congr_left hgot

/-! ## Other bytes -/

/-- The place `p` is not in a record at `a`. -/
def NotIn (p a : ℕ) : Prop := p < a ∨ a + sizeofHole ≤ p

theorem put32_of_notIn {d : Dword} {k : ℕ} (hk : k ≤ 8) (h : NotIn p a) : put32 m (a + k) d p = m p := by
  unfold NotIn sizeofHole at h
  rcases h with h | h
  · exact Mem.put_of_lt (by omega)
  · exact Mem.put_of_ge (by simp [bytes32]; omega)

theorem putNext_of_notIn {d : Dword} (h : NotIn p a) : putNext m a d p = m p := put32_of_notIn (k := 0) (by decide) h

theorem putStart_of_notIn {n : ℤ} (h : NotIn p a) : putStart m a n p = m p := put32_of_notIn (by decide) h

theorem putEnd_of_notIn {n : ℤ} (h : NotIn p a) : putEnd m a n p = m p := put32_of_notIn (by decide) h

/-- A turn writes to records only, and keeps book of them. -/
theorem visit_of_notIn {hip : ℕ} (h : ∀ c ∈ (visit hip D start fin w).writes, NotIn p c) :
    (∀ c ∈ w.writes, NotIn p c) ∧ (visit hip D start fin w).mem p = w.mem p := by
  have before : ∀ v : Walk, (∀ c ∈ (cutBefore start v).writes, NotIn p c) →
      (∀ c ∈ v.writes, NotIn p c) ∧ (cutBefore start v).mem p = v.mem p := by
    intro v hv
    unfold cutBefore at hv ⊢
    dsimp only at hv ⊢
    split_ifs at hv ⊢
    · simp only [List.forall_mem_append, List.forall_mem_singleton] at hv
      exact ⟨hv.1, putEnd_of_notIn hv.2⟩
    · cases hp : v.prev with
      | none =>
        simp only [hp] at hv ⊢
        exact ⟨hv, trivial⟩
      | some q =>
        simp only [hp, List.forall_mem_append, List.forall_mem_singleton] at hv ⊢
        exact ⟨hv.1, putNext_of_notIn hv.2⟩
  have after : ∀ (v : Walk) (e : ℤ), (∀ c ∈ (cutAfter hip D fin e v).writes, NotIn p c) →
      (∀ c ∈ v.writes, NotIn p c) ∧ (cutAfter hip D fin e v).mem p = v.mem p := by
    intro v e hv
    unfold cutAfter at hv ⊢
    dsimp only at hv ⊢
    split_ifs at hv ⊢
    · cases hp : v.prev with
      | none =>
        simp only [hp, List.forall_mem_append, List.forall_mem_singleton] at hv ⊢
        refine ⟨hv.1, ?_⟩
        rw [putNext_of_notIn hv.2, putEnd_of_notIn hv.2, putStart_of_notIn hv.2]
      | some q =>
        simp only [hp, List.forall_mem_append, List.forall_mem_cons, List.not_mem_nil, false_imp_iff,
          implies_true, and_true] at hv ⊢
        obtain ⟨hw, hn, hq⟩ := hv
        refine ⟨hw, ?_⟩
        rw [putNext_of_notIn hq, putNext_of_notIn hn, putEnd_of_notIn hn, putStart_of_notIn hn]
    · exact ⟨hv, rfl⟩
  unfold visit at h ⊢
  dsimp only at h ⊢
  split_ifs at h ⊢
  · obtain ⟨hw, hm⟩ := after _ _ h
    obtain ⟨hw', hm'⟩ := before _ hw
    exact ⟨hw', hm.trans hm'⟩
  · exact ⟨h, rfl⟩

/-- The loop leaves all other bytes as they are. -/
theorem walk_of_notIn {fuel : ℕ} (hw : walk cfg b D start fin fuel w = some w')
    (h : ∀ c ∈ w'.writes, NotIn p c) : (∀ c ∈ w.writes, NotIn p c) ∧ w'.mem p = w.mem p := by
  induction fuel generalizing w with
  | zero => simp [walk] at hw
  | succ fuel ih =>
    rw [walk] at hw
    have key : ∀ v : Walk, v.writes = (visit (cfg.hip b) D start fin w).writes →
        v.mem = (visit (cfg.hip b) D start fin w).mem → (∀ c ∈ v.writes, NotIn p c) ∧ w'.mem p = v.mem p →
        (∀ c ∈ w.writes, NotIn p c) ∧ w'.mem p = w.mem p := by
      rintro v hvw hvm ⟨hv, hm⟩
      rw [hvw] at hv
      obtain ⟨hw, hm'⟩ := visit_of_notIn hv
      exact ⟨hw, hm.trans ((congrFun hvm p).trans hm')⟩
    dsimp only at hw
    split_ifs at hw
    · obtain rfl := Option.some.inj hw
      exact key _ rfl rfl ⟨h, rfl⟩
    · split at hw
      · exact absurd hw (Option.some_ne_none _).symm
      · refine key _ ?_ ?_ (ih hw) <;> rfl

end Watt32.Frag
