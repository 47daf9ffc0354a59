import Mathlib.Data.Fintype.Pigeonhole
import Mathlib.Tactic
import Watt32.Lib.Mem

/-!
# Domain names in a reply

`unpack_domain` of `pcdns.c`: a name is a run of labels, each a length and that many bytes, and a
length with both top bits set is a pointer to where the name goes on.

* `chase`, `copyLabel`, `labels`: the two inner loops and the loop over the labels.
* `unpackDomain`: the function; `Circular`: the pointers from a place lead back to one of them.
* `labels_isSome`, `not_circular_of_labels`: when the loop over the labels ends.
* `wireLen`, `TooLong`: what a name that ends comes to.

A reply is a memory; its addresses count from `base`, the first byte of the header.
-/

namespace Watt32.Dns

abbrev Byte := BitVec 8
abbrev Word := BitVec 16
abbrev Dword := BitVec 32

/-- `MAX_LABEL_SIZE`. -/
def maxLabelSize : ℕ := 63

/-- `DOMSIZE`. -/
def domSize : ℕ := 512

/-- `'.'`. -/
def dot : Byte := 46

/-- `(j & 0xC0) == 0xC0`. -/
def isPointer (j : Byte) : Bool := j &&& 0xC0 = 0xC0

/-- `j & ~0xC0`. -/
def labelLen (j : Byte) : ℕ := (j &&& 0x3F).toNat

/-- `((j - 0xC0) << 8) + *src`, with `j` at `src` and the low byte after it. -/
def follow (mem : ℕ → Byte) (src : ℕ) : ℕ :=
  ((mem src).toNat - 0xC0) * 256 + (mem (src + 1)).toNat

/-! ## The loops -/

/-- `while ((j & 0xC0) == 0xC0)`: the place without a pointer and `retval`; `none` is no end in
`fuel` turns. -/
def chase (mem : ℕ → Byte) (start : ℕ) : (fuel src retval : ℕ) → Option (ℕ × ℕ)
  | 0, _, _ => none
  | fuel + 1, src, retval =>
    if isPointer (mem src) then
      chase mem start fuel (follow mem src) (if retval = 0 then src - start + 2 else retval)
    else some (src, retval)

/-- `for (i = 0; i < (j & ~0xC0); i++)`: `src` and the bytes at `dst`; `none` is `return (-1)`. -/
def copyLabel (mem : ℕ → Byte) (dstSize : ℕ) : (n src : ℕ) → List Byte → Option (ℕ × List Byte)
  | 0, src, dst => some (src, dst)
  | n + 1, src, dst =>
    if dstSize ≤ dst.length + 1 then none
    else copyLabel mem dstSize n (src + 1) (dst ++ [mem src])

/-- The variables of `unpack_domain`; `dst` is what it has written so far. -/
structure Cursor where
  src : ℕ
  dst : List Byte := []
  retval : ℕ := 0

/-- How the loop over the labels ends: by `return (-1)`, or at its condition. -/
inductive Scan
  | munged
  | name (c : Cursor)

/-- `*src && src < src_max && dst < dst_max`, with `w` bytes written. -/
def Opens (mem : ℕ → Byte) (srcMax : ℤ) (dstSize src w : ℕ) : Prop :=
  mem src ≠ 0 ∧ (src : ℤ) < srcMax ∧ w < dstSize

instance {mem : ℕ → Byte} {srcMax : ℤ} {dstSize src w : ℕ} :
    Decidable (Opens mem srcMax dstSize src w) :=
  inferInstanceAs (Decidable (_ ∧ _ ∧ _))

/-- `while (*src && src < src_max && dst < dst_max)`. -/
def labels (mem : ℕ → Byte) (start : ℕ) (srcMax : ℤ) (dstSize : ℕ) : (fuel : ℕ) → Cursor → Option Scan
  | 0, _ => none
  | fuel + 1, c =>
    if Opens mem srcMax dstSize c.src c.dst.length then
      match chase mem start fuel c.src c.retval with
      | none => none
      | some (src, retval) =>
        match copyLabel mem dstSize (labelLen (mem src)) (src + 1) c.dst with
        | none => some .munged
        | some (src, dst) => labels mem start srcMax dstSize fuel ⟨src, dst ++ [dot], retval⟩
    else some (.name c)

/-- What `unpack_domain` returns and what it leaves at `dst`. -/
structure Unpacked where
  retval : ℕ
  dst : List Byte
deriving DecidableEq

/-- The end of `unpack_domain`: the terminator goes over the last dot. -/
def finish (start : ℕ) (c : Cursor) : Unpacked :=
  let src := if start < c.src then c.src + 1 else c.src
  { retval := if c.retval = 0 then src - start else c.retval
    dst := if start < c.src then c.dst.dropLast ++ [0] else c.dst }

/-- `unpack_domain (q, start, src_size, dst, dst_size)`: `none` is no end in `fuel` turns, `some none`
is -1. A negative `src_size` wraps and puts `src_max` before `src`. -/
def unpackDomain (mem : ℕ → Byte) (start : ℕ) (srcSize : ℤ) (dstSize fuel : ℕ) :
    Option (Option Unpacked) :=
  (labels mem start (start + srcSize) dstSize fuel { src := start }).map fun
    | .munged => none
    | .name c => some (finish start c)

/-! ## Chains of pointers -/

variable {mem : ℕ → Byte} {start p q fuel retval dstSize w n : ℕ} {srcMax srcSize : ℤ}

/-- The pointers from `p` on lead back to a place they have been at. -/
def Circular (mem : ℕ → Byte) (p : ℕ) : Prop :=
  ∃ i j, i < j ∧ (follow mem)^[i] p = (follow mem)^[j] p ∧
    ∀ k ≤ j, isPointer (mem ((follow mem)^[k] p)) = true

/-- The pointers from `p` on end at `q`. -/
inductive Lands (mem : ℕ → Byte) : ℕ → ℕ → Prop
  | here {p : ℕ} : isPointer (mem p) = false → Lands mem p p
  | there {p q : ℕ} : isPointer (mem p) = true → Lands mem (follow mem p) q → Lands mem p q

/-- A pointer reaches 16 kbyte. -/
theorem follow_lt : follow mem p < 0x4000 := by
  have h₁ := (mem p).isLt
  have h₂ := (mem (p + 1)).isLt
  unfold follow; omega

/-- A chain of pointers with more turns than there are places to point to is circular. -/
theorem circular_of_forall (h : ∀ k ≤ 0x4000, isPointer (mem ((follow mem)^[k] p)) = true) :
    Circular mem p := by
  let place : Fin 0x4001 → Fin 0x4000 := fun k =>
    ⟨(follow mem)^[k + 1] p, by rw [Function.iterate_succ_apply']; exact follow_lt⟩
  obtain ⟨a, b, hab, he⟩ := Fintype.exists_ne_map_eq_of_card_lt place (by simp)
  have key : ∀ i j : ℕ, i < j → j ≤ 0x4000 →
      (follow mem)^[i + 1] p = (follow mem)^[j + 1] p → Circular mem p := by
    intro i j hij hj he
    refine ⟨i + 1, j + 1, by omega, he, fun k hk => ?_⟩
    rcases Nat.lt_or_ge 0x4000 k with hlt | hle
    · -- the last place is the one the chain came back to
      rw [show k = j + 1 by omega, ← he]
      exact h _ (by omega)
    · exact h k hle
  have he' : (follow mem)^[(a : ℕ) + 1] p = (follow mem)^[(b : ℕ) + 1] p := congrArg Fin.val he
  rcases Nat.lt_or_gt_of_ne (Fin.val_ne_of_ne hab) with hlt | hlt
  · exact key a b hlt (by omega) he'
  · exact key b a hlt (by omega) he'.symm

/-- A circular chain has a pointer at every turn. -/
theorem Circular.isPointer (h : Circular mem p) (n : ℕ) :
    isPointer (mem ((follow mem)^[n] p)) = true := by
  obtain ⟨i, j, hij, he, hp⟩ := h
  -- turns from `i` on repeat with the period `j - i`
  have back : ∀ m, (follow mem)^[i + m] p = (follow mem)^[j + m] p := by
    intro m
    rw [Nat.add_comm i, Nat.add_comm j, Function.iterate_add_apply, Function.iterate_add_apply, he]
  induction n using Nat.strong_induction_on with
  | _ n ih =>
    rcases Nat.lt_or_ge j n with hn | hn
    · have := ih (i + (n - j)) (by omega)
      rwa [back, Nat.add_sub_cancel' hn.le] at this
    · exact hp n hn

theorem Circular.follow (h : Circular mem p) : Circular mem (follow mem p) :=
  circular_of_forall fun k _ => by
    rw [← Function.iterate_succ_apply]
    exact h.isPointer (k + 1)

theorem Lands.not_circular (h : Lands mem p q) : ¬ Circular mem p := by
  induction h with
  | here hp => exact fun hc => by simpa [hp] using hc.isPointer 0
  | there _ _ ih => exact fun hc => ih hc.follow

theorem Lands.unique (h : Lands mem p q) {q' : ℕ} (h' : Lands mem p q') : q = q' := by
  induction h with
  | here hp =>
    cases h' with
    | here _ => rfl
    | there hp' _ => simp [hp] at hp'
  | there hp _ ih =>
    cases h' with
    | here hp' => simp [hp] at hp'
    | there _ h' => exact ih h'

theorem Lands.isPointer (h : Lands mem p q) : isPointer (mem q) = false := by
  induction h with
  | here hp => exact hp
  | there _ _ ih => exact ih

/-- What `chase` finds is where the pointers end; the first of them sets `retval`. -/
theorem chase_eq_some {src r : ℕ} (h : chase mem start fuel p retval = some (src, r)) :
    Lands mem p src ∧
      r = if retval = 0 ∧ isPointer (mem p) = true then p - start + 2 else retval := by
  induction fuel generalizing p retval with
  | zero => simp [chase] at h
  | succ fuel ih =>
    rw [chase] at h
    split_ifs at h with hp h0
    · have ⟨hl, hr⟩ := ih h
      exact ⟨.there hp hl, by simp [hr, h0, hp]⟩
    · have ⟨hl, hr⟩ := ih h
      exact ⟨.there hp hl, by simp [hr, h0]⟩
    · obtain ⟨rfl, rfl⟩ : p = src ∧ retval = r := by simpa using h
      exact ⟨.here (by simpa using hp), by simp [hp]⟩

/-- `chase` that has not ended met a pointer at every turn. -/
theorem chase_eq_none (h : chase mem start fuel p retval = none) :
    ∀ k < fuel, isPointer (mem ((follow mem)^[k] p)) = true := by
  induction fuel generalizing p retval with
  | zero => exact fun k hk => absurd hk (Nat.not_lt_zero k)
  | succ fuel ih =>
    rw [chase] at h
    split_ifs at h with hp h0 <;>
    · intro k hk
      cases k with
      | zero => exact hp
      | succ k => exact ih h k (by omega)

variable (start retval) in
/-- `chase` ends unless the pointers are circular. -/
theorem chase_isSome (h : ¬ Circular mem p) (hf : 0x4001 ≤ fuel) :
    ∃ r, chase mem start fuel p retval = some r := by
  cases hc : chase mem start fuel p retval with
  | some r => exact ⟨r, rfl⟩
  | none => exact absurd (circular_of_forall fun k hk => chase_eq_none hc k (by omega)) h

/-- Pointers that are not circular end somewhere. -/
theorem Lands.exists (h : ¬ Circular mem p) : ∃ q, Lands mem p q := by
  obtain ⟨⟨q, r⟩, hq⟩ := chase_isSome 0 0 h (le_refl 0x4001)
  exact ⟨q, (chase_eq_some hq).1⟩

/-! ## Labels -/

/-- A label is copied when it leaves room for its dot. -/
theorem copyLabel_eq {dst : List Byte} {src : ℕ} (hw : dst.length < dstSize) :
    copyLabel mem dstSize n src dst =
      if dst.length + n < dstSize then some (src + n, dst ++ Mem.slice mem src n) else none := by
  induction n generalizing src dst with
  | zero => simp [copyLabel, hw]
  | succ n ih =>
    rw [copyLabel]
    split_ifs with h₁ h₂ h₂
    · omega
    · rfl
    · rw [ih (by simp; omega), if_pos (by simp; omega)]
      have hs : Mem.slice mem src (1 + n) = mem src :: Mem.slice mem (src + 1) n := Mem.slice_add
      rw [Nat.add_comm n 1, hs, List.append_assoc, List.singleton_append, Nat.add_assoc]
    · rw [ih (by simp; omega), if_neg (by simp; omega)]

/-- The labels of the name at `start`, and how many bytes stand at `dst` before each: the loop comes
to `p` with `w` bytes written. -/
inductive Label (mem : ℕ → Byte) (srcMax : ℤ) (dstSize : ℕ) : (start w₀ p w : ℕ) → Prop
  | first {start w₀ : ℕ} : Label mem srcMax dstSize start w₀ start w₀
  | next {start w₀ q p w : ℕ} : Opens mem srcMax dstSize start w₀ → Lands mem start q →
      w₀ + labelLen (mem q) < dstSize →
      Label mem srcMax dstSize (q + 1 + labelLen (mem q)) (w₀ + labelLen (mem q) + 1) p w →
      Label mem srcMax dstSize start w₀ p w

/-- No label of the name is on circular pointers. -/
def NameEnds (mem : ℕ → Byte) (start : ℕ) (srcSize : ℤ) (dstSize : ℕ) : Prop :=
  ∀ p w, Label mem (start + srcSize) dstSize start 0 p w → Opens mem (start + srcSize) dstSize p w →
    ¬ Circular mem p

/-- A label of the name leaves no room at `dst` for itself and its dot. -/
def TooLong (mem : ℕ → Byte) (start : ℕ) (srcSize : ℤ) (dstSize : ℕ) : Prop :=
  ∃ p w q, Label mem (start + srcSize) dstSize start 0 p w ∧ Opens mem (start + srcSize) dstSize p w ∧
    Lands mem p q ∧ dstSize ≤ w + labelLen (mem q)

/-- One turn of the loop over the labels. -/
theorem labels_succ {c : Cursor} {src r : ℕ} (ho : Opens mem srcMax dstSize c.src c.dst.length)
    (hc : chase mem start fuel c.src c.retval = some (src, r)) :
    labels mem start srcMax dstSize (fuel + 1) c =
      if c.dst.length + labelLen (mem src) < dstSize then
        labels mem start srcMax dstSize fuel
          ⟨src + 1 + labelLen (mem src), c.dst ++ Mem.slice mem (src + 1) (labelLen (mem src)) ++ [dot], r⟩
      else some .munged := by
  rw [labels, if_pos ho, hc]
  simp only [copyLabel_eq ho.2.2]
  split_ifs <;> rfl

/-- A loop that ends met no circular pointers. -/
theorem not_circular_of_labels {c : Cursor} {s : Scan} {w : ℕ}
    (h : labels mem start srcMax dstSize fuel c = some s)
    (hl : Label mem srcMax dstSize c.src c.dst.length p w) (ho : Opens mem srcMax dstSize p w) :
    ¬ Circular mem p := by
  induction fuel generalizing c with
  | zero => simp [labels] at h
  | succ fuel ih =>
    have land : ∀ hc : Opens mem srcMax dstSize c.src c.dst.length,
        ∃ src r, chase mem start fuel c.src c.retval = some (src, r) := by
      intro hc
      rw [labels, if_pos hc] at h
      cases hch : chase mem start fuel c.src c.retval with
      | none => simp [hch] at h
      | some x => exact ⟨x.1, x.2, rfl⟩
    cases hl with
    | first =>
      obtain ⟨src, r, hch⟩ := land ho
      exact (chase_eq_some hch).1.not_circular
    | @next _ _ q _ _ hc hq hfit hl =>
      obtain ⟨src, r, hch⟩ := land hc
      obtain rfl := hq.unique (chase_eq_some hch).1
      rw [labels_succ hc hch, if_pos hfit] at h
      refine ih h ?_
      simpa [Nat.add_assoc] using hl

variable (start) in
/-- A loop that meets no circular pointers ends: each turn writes a dot at least. -/
theorem labels_isSome {c : Cursor}
    (h : ∀ p w, Label mem srcMax dstSize c.src c.dst.length p w → Opens mem srcMax dstSize p w →
      ¬ Circular mem p) (hf : 0x4002 + (dstSize - c.dst.length) ≤ fuel) :
    ∃ s, labels mem start srcMax dstSize fuel c = some s := by
  induction fuel generalizing c with
  | zero => omega
  | succ fuel ih =>
    by_cases ho : Opens mem srcMax dstSize c.src c.dst.length
    · obtain ⟨⟨src, r⟩, hch⟩ := chase_isSome start c.retval (h _ _ .first ho)
        (show 0x4001 ≤ fuel by omega)
      rw [labels_succ ho hch]
      split_ifs with hfit
      · refine ih (fun p w hl => h p w (.next ho (chase_eq_some hch).1 hfit ?_)) ?_
        · simpa [Nat.add_assoc] using hl
        · have := ho.2.2
          simp only [List.length_append, Mem.length_slice, List.length_singleton]
          omega
      · exact ⟨_, rfl⟩
    · exact ⟨.name c, by rw [labels, if_neg ho]⟩

/-- `unpack_domain` ends, within 16 kbyte of turns and one for each byte of `dst`, when no label of
the name is on circular pointers. -/
theorem unpackDomain_isSome (h : NameEnds mem start srcSize dstSize) (hf : 0x4002 + dstSize ≤ fuel) :
    ∃ r, unpackDomain mem start srcSize dstSize fuel = some r := by
  obtain ⟨s, hs⟩ := labels_isSome start (c := { src := start }) h (by simpa using hf)
  exact ⟨_, by rw [unpackDomain, hs]; rfl⟩

theorem nameEnds_of_unpackDomain {r : Option Unpacked}
    (h : unpackDomain mem start srcSize dstSize fuel = some r) : NameEnds mem start srcSize dstSize := by
  intro p w hl ho
  obtain ⟨s, hs, -⟩ := Option.map_eq_some_iff.mp h
  exact not_circular_of_labels hs hl ho

/-! ## What it returns -/

/-- The bytes that a label or the end of a name at `src` takes there, with all that follows in place:
up to a pointer, the terminator, `src_max` or the end of the `room` at `dst`. -/
def wireLen (mem : ℕ → Byte) (srcMax : ℤ) (room src : ℕ) : ℕ :=
  if Opens mem srcMax room src 0 then
    if isPointer (mem src) then 2
    else 1 + labelLen (mem src) +
      wireLen mem srcMax (room - (labelLen (mem src) + 1)) (src + 1 + labelLen (mem src))
  else 1
termination_by room
decreasing_by
  have : 0 < room := by rename_i h _; exact h.2.2
  omega

/-- The bytes of the name at `start` in place; nothing is counted for a name without labels. -/
def nameLen (mem : ℕ → Byte) (start : ℕ) (srcSize : ℤ) (dstSize : ℕ) : ℕ :=
  if Opens mem (start + srcSize) dstSize start 0 then wireLen mem (start + srcSize) dstSize start else 0

theorem opens_sub : Opens mem srcMax (dstSize - w) p 0 ↔ Opens mem srcMax dstSize p w := by
  rw [Opens, Opens, Nat.sub_pos_iff_lt]

theorem wireLen_eq : wireLen mem srcMax (dstSize - w) p =
    if Opens mem srcMax dstSize p w then
      if isPointer (mem p) then 2
      else 1 + labelLen (mem p) +
        wireLen mem srcMax (dstSize - (w + (labelLen (mem p) + 1))) (p + 1 + labelLen (mem p))
    else 1 := by
  rw [wireLen, Nat.sub_sub]
  exact if_congr opens_sub rfl rfl

theorem wireLen_pos : 0 < wireLen mem srcMax n p := by
  rw [wireLen]
  split_ifs <;> omega

/-- The cases of one turn: the loop ends at its condition, at a label that is too long, or goes on
after a label. -/
theorem labels_cases {c : Cursor} {s : Scan} (h : labels mem start srcMax dstSize fuel c = some s) :
    (¬ Opens mem srcMax dstSize c.src c.dst.length ∧ s = .name c) ∨
    ∃ n src r, fuel = n + 1 ∧ Opens mem srcMax dstSize c.src c.dst.length ∧ Lands mem c.src src ∧
      r = (if c.retval = 0 ∧ isPointer (mem c.src) = true then c.src - start + 2 else c.retval) ∧
      if c.dst.length + labelLen (mem src) < dstSize then
        labels mem start srcMax dstSize n
          ⟨src + 1 + labelLen (mem src), c.dst ++ Mem.slice mem (src + 1) (labelLen (mem src)) ++ [dot], r⟩
          = some s
      else s = .munged := by
  cases fuel with
  | zero => simp [labels] at h
  | succ fuel =>
    by_cases ho : Opens mem srcMax dstSize c.src c.dst.length
    · right
      cases hch : chase mem start fuel c.src c.retval with
      | none => simp [labels, if_pos ho, hch] at h
      | some x =>
        obtain ⟨src, r⟩ := x
        obtain ⟨hl, hr⟩ := chase_eq_some hch
        refine ⟨fuel, src, r, rfl, ho, hl, hr, ?_⟩
        rw [labels_succ ho hch] at h
        split_ifs at h ⊢
        · exact h
        · exact (Option.some.inj h).symm
    · left
      rw [labels, if_neg ho] at h
      exact ⟨ho, (Option.some.inj h).symm⟩

/-- The loop ends with -1 when a label is too long, and only then. -/
theorem labels_munged {c : Cursor} {s : Scan} (h : labels mem start srcMax dstSize fuel c = some s) :
    s = .munged ↔ ∃ p w q, Label mem srcMax dstSize c.src c.dst.length p w ∧
      Opens mem srcMax dstSize p w ∧ Lands mem p q ∧ dstSize ≤ w + labelLen (mem q) := by
  induction fuel generalizing c with
  | zero => simp [labels] at h
  | succ fuel ih =>
    rcases labels_cases h with ⟨ho, rfl⟩ | ⟨n, src, r, hn, ho, hl, -, hs⟩
    · simp only [reduceCtorEq, false_iff, not_exists, not_and]
      intro p w q hlab hop _
      cases hlab with
      | first => exact absurd hop ho
      | next ho' _ _ _ => exact absurd ho' ho
    · obtain rfl : fuel = n := by omega
      split_ifs at hs with hfit
      · rw [ih hs]
        simp only [List.length_append, Mem.length_slice, List.length_singleton]
        refine exists_congr fun p => exists_congr fun w => exists_congr fun q => ?_
        refine ⟨fun ⟨hlab, h'⟩ => ⟨.next ho hl hfit hlab, h'⟩, fun ⟨hlab, hop, hq, hle⟩ => ?_⟩
        cases hlab with
        | first =>
          obtain rfl := hq.unique hl
          omega
        | next _ hl' _ hlab =>
          obtain rfl := hl'.unique hl
          exact ⟨hlab, hop, hq, hle⟩
      · simp only [hs, true_iff]
        exact ⟨_, _, src, .first, ho, hl, by omega⟩

/-- Once `retval` is set it stays. -/
theorem labels_retval {c c' : Cursor} (h : labels mem start srcMax dstSize fuel c = some (.name c'))
    (h0 : c.retval ≠ 0) : c'.retval = c.retval := by
  induction fuel generalizing c with
  | zero => simp [labels] at h
  | succ fuel ih =>
    rcases labels_cases h with ⟨-, hs⟩ | ⟨n, src, r, hn, -, -, hr, hs⟩
    · rw [Scan.name.inj hs]
    · obtain rfl : fuel = n := by omega
      rw [if_neg (by tauto)] at hr
      split_ifs at hs
      exact (ih hs (by simpa [hr])).trans hr

/-- Up to the first pointer the loop counts the bytes in place. -/
theorem labels_wireLen {c c' : Cursor} (h : labels mem start srcMax dstSize fuel c = some (.name c'))
    (h0 : c.retval = 0) (hs : start ≤ c.src) :
    (c'.retval = 0 → c.src ≤ c'.src) ∧
      (if c'.retval = 0 then c'.src + 1 - start else c'.retval) =
        c.src - start + wireLen mem srcMax (dstSize - c.dst.length) c.src := by
  induction fuel generalizing c with
  | zero => simp [labels] at h
  | succ fuel ih =>
    rw [wireLen_eq]
    rcases labels_cases h with ⟨ho, hc⟩ | ⟨n, src, r, hn, ho, hl, hr, hs'⟩
    · obtain rfl := Scan.name.inj hc
      rw [if_neg ho, if_pos h0]
      exact ⟨fun _ => le_rfl, by omega⟩
    · obtain rfl : fuel = n := by omega
      rw [if_pos ho]
      split_ifs at hs' with hfit
      by_cases hp : isPointer (mem c.src) = true
      · -- the pointer settles the count
        rw [if_pos ⟨h0, hp⟩] at hr
        have hret := labels_retval hs' (by simp [hr])
        simp only at hret
        rw [if_pos hp, if_neg (by omega)]
        omega
      · rw [if_neg (by tauto), h0] at hr
        have hsrc : c.src = src := Lands.unique (.here (by simpa using hp)) hl
        subst hsrc hr
        have hlen : (c.dst ++ Mem.slice mem (c.src + 1) (labelLen (mem c.src)) ++ [dot]).length
            = c.dst.length + (labelLen (mem c.src) + 1) := by simp
        obtain ⟨h₁, h₂⟩ := ih hs' rfl (by simp only; omega)
        simp only [hlen] at h₁ h₂
        rw [if_neg hp]
        exact ⟨fun h => by have := h₁ h; omega, by omega⟩

/-- What `unpack_domain` returns: -1 for a name that is too long, else the bytes it has in place. -/
theorem unpackDomain_spec {r : Option Unpacked}
    (h : unpackDomain mem start srcSize dstSize fuel = some r) :
    (r = none ↔ TooLong mem start srcSize dstSize) ∧
      ∀ u, r = some u → u.retval = nameLen mem start srcSize dstSize := by
  obtain ⟨s, hs, hr⟩ := Option.map_eq_some_iff.mp h
  refine ⟨?_, ?_⟩
  · have hm : s = .munged ↔ TooLong mem start srcSize dstSize := labels_munged hs
    rw [← hm, ← hr]
    cases s <;> simp
  · rintro u rfl
    cases s with
    | munged => simp at hr
    | name c =>
      obtain rfl := Option.some.inj hr
      rw [nameLen, finish]
      by_cases ho : Opens mem (start + srcSize) dstSize start 0
      · have ⟨h₁, h₂⟩ := labels_wireLen hs rfl le_rfl
        simp only [Nat.sub_self, Nat.zero_add, Nat.sub_zero, List.length_nil] at h₁ h₂
        rw [if_pos ho, ← h₂]
        simp only
        split_ifs with h0 hlt
        · rfl
        · -- a label takes a byte at least
          rw [if_pos h0, wireLen, if_pos ho] at h₂
          have := h₁ h0
          have : 0 < wireLen mem (start + srcSize) (dstSize - (labelLen (mem start) + 1))
            (start + 1 + labelLen (mem start)) := wireLen_pos
          split_ifs at h₂ <;> omega
        · rfl
      · rcases labels_cases hs with ⟨-, hc⟩ | ⟨_, _, _, _, ho', _⟩
        · obtain rfl := Scan.name.inj hc
          simp [ho]
        · exact absurd ho' ho

end Watt32.Dns
