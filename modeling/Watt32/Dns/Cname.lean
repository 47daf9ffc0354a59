import Watt32.Dns.Response
import Watt32.Lib.Reads

/-!
# What `extract_cname` reads and writes

The loop tests the room at `dest` before a label, and the copy of a label stops two bytes late; what
it reads it does not test at all.

* `extractCnameR`: `extract_cname` as a program that reads the reply; **`eval_extractCnameR`**.
* `cnameWrites`: the places at `dest` that are written.
* `CnameBounded`: it reads within the reply, writes within `max`, and leaves a terminator.
* **`extractCname_bounded_iff`**: it does so exactly if every label that the loop comes to lies in the
  reply and fits.
-/

namespace Watt32.Dns

open Reads

/-! ## The program -/

/-- `while (count > 0)` of `extract_cname`. -/
def copyCnameR (max : ℕ) : (count p : ℕ) → List Byte → Reads Byte (ℕ × List Byte)
  | 0, p, dest => pure (p, dest)
  | count + 1, p, dest =>
    if max < dest.length then pure (p, dest)
    else do
      let b ← cell p
      copyCnameR max count (p + 1) (dest ++ [b])

/-- The length of a label and its place, behind a pointer or not. -/
def cnameLabelR (p : ℕ) : Reads Byte (ℕ × ℕ) := do
  let count ← cell p
  if isPointer count then do
    let lo ← cell (p + 1)
    let ofs : Word := ((count - 0xC0).setWidth 16 <<< 8) + lo.signExtend 16
    let count ← cell ofs.toNat
    return (ofs.toNat + 1, count.toNat)
  else return (p + 1, count.toNat)

/-- `while (dest < end)`, in `fuel` turns at most. -/
def cnameLabelsR (max : ℕ) : (fuel p : ℕ) → List Byte → Reads Byte (List Byte)
  | 0, _, dest => pure dest
  | fuel + 1, p, dest =>
    if dest.length < max then do
      let label ← cnameLabelR p
      if label.2 = 0 then return dest
      else do
        let r ← copyCnameR max label.2 label.1 dest
        cnameLabelsR max fuel r.1 (r.2 ++ [dot])
    else pure dest

/-- `extract_cname (q, src, dest, max)`: every turn writes, so `max` turns are enough. -/
def extractCnameR (src max : ℕ) : Reads Byte (List Byte) := do
  let dest ← cnameLabelsR max max src []
  return (if dest.getLast? = some dot then dest.dropLast else dest) ++ [0]

/-- The places at `dest` that are written, in order: a byte each, and the terminator. -/
def cnameWrites (mem : ℕ → Byte) (src max : ℕ) : List ℕ :=
  let dest := cnameLabels mem max src []
  List.range dest.length ++ [if dest.getLast? = some dot then dest.length - 1 else dest.length]

variable {mem : ℕ → Byte} {max count p src fuel len : ℕ} {dest : List Byte}

theorem eval_copyCnameR : eval mem (copyCnameR max count p dest) = copyCname mem max count p dest := by
  induction count generalizing p dest with
  | zero => rfl
  | succ count ih =>
    rw [copyCnameR, copyCname, eval_ite, eval_bind, ih]
    rfl

theorem eval_cnameLabelR : eval mem (cnameLabelR p) = cnameLabel mem p := by
  unfold cnameLabelR cnameLabel
  rw [eval_bind, eval_ite]
  rfl

/-- **The program** is `extract_cname`. -/
theorem eval_cnameLabelsR (hf : max - dest.length ≤ fuel) :
    eval mem (cnameLabelsR max fuel p dest) = cnameLabels mem max p dest := by
  induction fuel generalizing p dest with
  | zero =>
    rw [cnameLabels, if_neg (by omega)]
    rfl
  | succ fuel ih =>
    rw [cnameLabelsR, cnameLabels, eval_ite]
    by_cases hlt : dest.length < max
    · rw [if_pos hlt, if_pos hlt, eval_bind, eval_cnameLabelR, eval_ite]
      by_cases h0 : (cnameLabel mem p).2 = 0
      · rw [if_pos h0, if_pos h0]
        rfl
      · have hgrow := le_length_copyCname mem max (cnameLabel mem p).2 (cnameLabel mem p).1 dest
        rw [if_neg h0, if_neg h0, eval_bind, eval_copyCnameR, ih]
        rw [List.length_append, List.length_singleton]
        omega
    · rw [if_neg hlt, if_neg hlt]
      rfl

theorem eval_extractCnameR : eval mem (extractCnameR src max) = extractCname mem src max := by
  unfold extractCnameR extractCname
  have hlabels : eval mem (cnameLabelsR max max src []) = cnameLabels mem max src [] :=
    eval_cnameLabelsR (Nat.sub_le _ _)
  rw [eval_bind, hlabels]
  rfl

/-! ## Labels -/

/-- The bytes that are read of the label at `p` lie below `len`. -/
def LabelInside (mem : ℕ → Byte) (len p : ℕ) : Prop :=
  p < len ∧ (isPointer (mem p) = true → p + 1 < len ∧ (cnameOfs mem p).toNat < len) ∧
    ((cnameLabel mem p).2 ≠ 0 → (cnameLabel mem p).1 + (cnameLabel mem p).2 ≤ len)

/-- The labels of the name at `src` that fit: the loop comes to `p` with `w` bytes written. -/
inductive CnameLabel (mem : ℕ → Byte) (max : ℕ) : (src w₀ p w : ℕ) → Prop
  | first {src w₀ : ℕ} : CnameLabel mem max src w₀ src w₀
  | next {src w₀ p w : ℕ} : w₀ < max → (cnameLabel mem src).2 ≠ 0 → w₀ + (cnameLabel mem src).2 < max →
      CnameLabel mem max ((cnameLabel mem src).1 + (cnameLabel mem src).2)
        (w₀ + (cnameLabel mem src).2 + 1) p w →
      CnameLabel mem max src w₀ p w

/-- A label that is no end leaves room for its dot. -/
def LabelFits (mem : ℕ → Byte) (max p w : ℕ) : Prop :=
  (cnameLabel mem p).2 ≠ 0 → w + (cnameLabel mem p).2 < max

/-- A label that fits is copied whole. -/
theorem copyCname_eq (h : dest.length + count < max + 1) :
    copyCname mem max count p dest = (p + count, dest ++ Mem.slice mem p count) := by
  induction count generalizing p dest with
  | zero => simp [copyCname]
  | succ count ih =>
    rw [copyCname, if_neg (by omega), ih (by rw [List.length_append, List.length_singleton]; omega)]
    have hs : Mem.slice mem p (1 + count) = mem p :: Mem.slice mem (p + 1) count := Mem.slice_add
    rw [Nat.add_comm count 1, hs, List.append_assoc, List.singleton_append, Nat.add_assoc]

/-- A label that does not fit leaves no room for its dot. -/
theorem le_length_of_not_fits (mem : ℕ → Byte) (h : max ≤ dest.length + count) :
    max ≤ (copyCname mem max count p dest).2.length := by
  induction count generalizing p dest with
  | zero => exact h
  | succ count ih =>
    rw [copyCname]
    split_ifs with hlt
    · exact hlt.le
    · exact ih (by rw [List.length_append, List.length_singleton]; omega)

/-! ## Bounds -/

variable {P : ℕ → Prop}

theorem within_ite {α β : Type} {m : ℕ → α} {c : Prop} [Decidable c] {x y : Reads α β} :
    Within P m (if c then x else y) ↔ (c → Within P m x) ∧ (¬c → Within P m y) := by
  by_cases h : c <;> simp [h]

theorem within_cnameLabelR : Within (· < len) mem (cnameLabelR p) ↔
    p < len ∧ (isPointer (mem p) = true → p + 1 < len ∧ (cnameOfs mem p).toNat < len) := by
  unfold cnameLabelR
  rw [within_bind, within_cell, within_ite]
  refine and_congr_right fun _ => ?_
  rw [and_iff_left fun _ => within_pure, eval_cell]
  refine imp_congr_right fun _ => ?_
  rw [within_bind, within_cell]
  refine and_congr_right fun _ => ?_
  rw [within_bind, and_iff_left within_pure, within_cell]
  rfl

/-- The copy reads as much as it writes. -/
theorem within_copyCnameR : Within (· < len) mem (copyCnameR max count p dest) ↔
    (min count (max + 1 - dest.length) ≠ 0 → p + min count (max + 1 - dest.length) ≤ len) := by
  induction count generalizing p dest with
  | zero => exact iff_of_true within_pure fun h => absurd (Nat.zero_min _) h
  | succ count ih =>
    rw [copyCnameR, within_ite]
    by_cases hlt : max < dest.length
    · rw [Nat.sub_eq_zero_of_le hlt, Nat.min_zero]
      exact iff_of_true ⟨fun _ => within_pure, fun h => absurd hlt h⟩ fun h => absurd rfl h
    · rw [and_iff_right fun h => absurd h hlt, within_bind, within_cell, ih, List.length_append,
        List.length_singleton]
      omega

/-- The end of the loop. -/
theorem cnameLabels_full (h : max ≤ dest.length) : cnameLabels mem max p dest = dest := by
  rw [cnameLabels, if_neg (by omega)]

/-- One turn of the loop. -/
theorem cnameLabels_fits (hlt : dest.length < max) (h0 : (cnameLabel mem p).2 ≠ 0)
    (hfit : dest.length + (cnameLabel mem p).2 < max) : cnameLabels mem max p dest =
      cnameLabels mem max ((cnameLabel mem p).1 + (cnameLabel mem p).2)
        (dest ++ Mem.slice mem (cnameLabel mem p).1 (cnameLabel mem p).2 ++ [dot]) := by
  rw [cnameLabels, if_pos hlt, if_neg h0, copyCname_eq (by omega)]

/-- A label that does not fit is the last. -/
theorem length_cnameLabels_overlong (hlt : dest.length < max) (h0 : (cnameLabel mem p).2 ≠ 0)
    (hfit : ¬dest.length + (cnameLabel mem p).2 < max) : max < (cnameLabels mem max p dest).length := by
  have hlong := le_length_of_not_fits mem (p := (cnameLabel mem p).1) (not_lt.mp hfit)
  rw [cnameLabels, if_pos hlt, if_neg h0, cnameLabels_full (by
    rw [List.length_append, List.length_singleton]; omega), List.length_append, List.length_singleton]
  omega

/-- The bytes at `dest` behind a label that fits. -/
theorem length_label : (dest ++ Mem.slice mem (cnameLabel mem p).1 (cnameLabel mem p).2 ++ [dot]).length =
    dest.length + (cnameLabel mem p).2 + 1 := by
  rw [List.length_append, List.length_append, Mem.length_slice, List.length_singleton]

/-- **What is written**: the loop does not go beyond `max` exactly if every label fits. -/
theorem length_cnameLabels_le_iff (hle : dest.length ≤ max) : (cnameLabels mem max p dest).length ≤ max ↔
    ∀ q w, CnameLabel mem max p dest.length q w → w < max → LabelFits mem max q w := by
  obtain ⟨n, hn⟩ : ∃ n, max - dest.length ≤ n := ⟨_, le_rfl⟩
  induction n generalizing p dest with
  | zero =>
    rw [cnameLabels_full (by omega)]
    refine iff_of_true hle fun q w hl hw => ?_
    cases hl with
    | first => omega
    | next hlt => omega
  | succ n ih =>
    by_cases hlt : dest.length < max
    · by_cases h0 : (cnameLabel mem p).2 = 0
      · have hend : cnameLabels mem max p dest = dest := by rw [cnameLabels, if_pos hlt, if_pos h0]
        rw [hend]
        refine iff_of_true hle fun q w hl hw => ?_
        cases hl with
        | first => exact fun h => absurd h0 h
        | next _ h => exact absurd h0 h
      · by_cases hfit : dest.length + (cnameLabel mem p).2 < max
        · rw [cnameLabels_fits hlt h0 hfit, ih (by rw [length_label]; omega) (by rw [length_label]; omega),
            length_label]
          refine ⟨fun h q w hl hw => ?_, fun h q w hl => h q w (.next hlt h0 hfit hl)⟩
          cases hl with
          | first => exact fun _ => hfit
          | next _ _ _ hl => exact h q w hl hw
        · have hover := length_cnameLabels_overlong hlt h0 hfit
          exact iff_of_false (by omega) fun h => hfit (h p dest.length .first hlt h0)
    · rw [cnameLabels_full (not_lt.mp hlt)]
      refine iff_of_true hle fun q w hl hw => ?_
      cases hl with
      | first => omega
      | next h => exact absurd h hlt

/-- The bytes that are read of the label at `p`, with `w` bytes written. -/
def LabelRead (mem : ℕ → Byte) (len max p w : ℕ) : Prop :=
  p < len ∧ (isPointer (mem p) = true → p + 1 < len ∧ (cnameOfs mem p).toNat < len) ∧
    ((cnameLabel mem p).2 ≠ 0 → (cnameLabel mem p).1 + min (cnameLabel mem p).2 (max + 1 - w) ≤ len)

/-- **What is read**: the bytes of the labels that the loop comes to, as far as there is room. -/
theorem within_cnameLabelsR (hf : max - dest.length ≤ fuel) :
    Within (· < len) mem (cnameLabelsR max fuel p dest) ↔
      ∀ q w, CnameLabel mem max p dest.length q w → w < max → LabelRead mem len max q w := by
  induction fuel generalizing p dest with
  | zero =>
    refine iff_of_true within_pure fun q w hl hw => ?_
    cases hl with
    | first => omega
    | next hlt => omega
  | succ fuel ih =>
    rw [cnameLabelsR, within_ite]
    by_cases hlt : dest.length < max
    · have hmin : (cnameLabel mem p).2 ≠ 0 → min (cnameLabel mem p).2 (max + 1 - dest.length) ≠ 0 := by omega
      rw [and_iff_left fun h => absurd hlt h, imp_iff_right hlt, within_bind, within_cnameLabelR,
        eval_cnameLabelR, within_ite, and_iff_right fun _ => within_pure, within_bind, within_copyCnameR,
        eval_copyCnameR]
      constructor
      · rintro ⟨⟨h₁, h₂⟩, hmore⟩ q w hl hw
        cases hl with
        | first => exact ⟨h₁, h₂, fun h0 => (hmore h0).1 (hmin h0)⟩
        | next _ h0 hfit hl =>
          have hrest := (hmore h0).2
          rw [copyCname_eq (by omega), ih (by rw [length_label]; omega), length_label] at hrest
          exact hrest q w hl hw
      · intro h
        obtain ⟨h₁, h₂, h₃⟩ := h p dest.length .first hlt
        refine ⟨⟨h₁, h₂⟩, fun h0 => ⟨fun _ => h₃ h0, ?_⟩⟩
        by_cases hfit : dest.length + (cnameLabel mem p).2 < max
        · rw [copyCname_eq (by omega), ih (by rw [length_label]; omega), length_label]
          exact fun q w hl => h q w (.next hlt h0 hfit hl)
        · -- no label is read behind one that does not fit
          have hlong := le_length_of_not_fits mem (p := (cnameLabel mem p).1) (not_lt.mp hfit)
          rw [ih (by rw [List.length_append, List.length_singleton]; omega), List.length_append,
            List.length_singleton]
          intro q w hl hw
          cases hl with
          | first => omega
          | next hlt' => omega
    · refine iff_of_true ⟨fun h => absurd h hlt, fun _ => within_pure⟩ fun q w hl hw => ?_
      cases hl with
      | first => omega
      | next h => exact absurd h hlt

/-- Of a label that fits all bytes are read. -/
theorem labelRead_iff_inside {w : ℕ} (hw : w < max) (h : LabelFits mem max p w) :
    LabelRead mem len max p w ↔ LabelInside mem len p := by
  unfold LabelRead LabelInside
  refine and_congr_right fun _ => and_congr_right fun _ => imp_congr_right fun h0 => ?_
  have := h h0
  rw [Nat.min_eq_left (by omega)]

/-! ## The function -/

/-- Every label ends with a dot. -/
theorem getLast?_cnameLabels (mem : ℕ → Byte) (max p : ℕ) (h : dest = [] ∨ dest.getLast? = some dot) :
    cnameLabels mem max p dest = [] ∨ (cnameLabels mem max p dest).getLast? = some dot := by
  induction p, dest using cnameLabels.induct mem max with
  | case1 p dest hlt h0 =>
    rw [cnameLabels, if_pos hlt, if_pos h0]
    exact h
  | case2 p dest hlt h0 ih =>
    rw [cnameLabels, if_pos hlt, if_neg h0]
    exact ih (.inr List.getLast?_concat)
  | case3 p dest hge =>
    rw [cnameLabels, if_neg hge]
    exact h

/-- The places that are written lie before `max` if there is room for the terminator and the loop has
not gone beyond. -/
theorem cnameWrites_lt_iff :
    (∀ i ∈ cnameWrites mem src max, i < max) ↔ 0 < max ∧ (cnameLabels mem max src []).length ≤ max := by
  unfold cnameWrites
  dsimp only
  rcases getLast?_cnameLabels mem max src (.inl rfl) with h | h
  · rw [h]
    simp
  · have hpos : 0 < (cnameLabels mem max src []).length := by
      rw [List.length_pos_iff]
      intro h0
      rw [h0] at h
      cases h
    rw [if_pos h]
    simp only [List.mem_append, List.mem_range, List.mem_singleton]
    constructor
    · intro hall
      have := hall ((cnameLabels mem max src []).length - 1) (.inr rfl)
      omega
    · rintro ⟨h0, hle⟩ i (hi | rfl) <;> omega

/-- The bytes that `extract_cname` reads lie in the reply. -/
def CnameInside (mem : ℕ → Byte) (len src max : ℕ) : Prop :=
  ∀ p w, CnameLabel mem max src 0 p w → w < max → LabelRead mem len max p w

theorem within_extractCnameR : Within (· < len) mem (extractCnameR src max) ↔ CnameInside mem len src max := by
  unfold extractCnameR
  rw [within_bind, and_iff_left within_pure]
  exact within_cnameLabelsR (Nat.sub_le _ _)

/-- **Bounds**: the loop has left after `max` turns, no write at `dest[max]` or behind it, no read
behind the `len` bytes of the reply, and a terminator at the end. -/
def CnameBounded (mem : ℕ → Byte) (len src max : ℕ) : Prop :=
  (∀ fuel, max ≤ fuel → eval mem (cnameLabelsR max fuel src []) = cnameLabels mem max src []) ∧
  (∀ i ∈ cnameWrites mem src max, i < max) ∧ Within (· < len) mem (extractCnameR src max) ∧
    (eval mem (extractCnameR src max)).getLast? = some 0

/-- **A canonical name**: `extract_cname` stays in its bounds exactly if there is room for the
terminator, and every label it comes to fits, with its dot, and lies in the reply. -/
theorem extractCname_bounded_iff (mem : ℕ → Byte) (len src max : ℕ) : CnameBounded mem len src max ↔
    0 < max ∧ ∀ p w, CnameLabel mem max src 0 p w → w < max → LabelFits mem max p w ∧ LabelInside mem len p := by
  have hend : (eval mem (extractCnameR src max)).getLast? = some 0 := by
    rw [eval_extractCnameR]
    exact List.getLast?_concat
  have hsize : (cnameLabels mem max src []).length ≤ max ↔
      ∀ p w, CnameLabel mem max src 0 p w → w < max → LabelFits mem max p w :=
    length_cnameLabels_le_iff (Nat.zero_le _)
  rw [CnameBounded, and_iff_right fun fuel h => eval_cnameLabelsR (by simpa using h), cnameWrites_lt_iff,
    within_extractCnameR, and_iff_left hend, and_assoc, hsize]
  refine and_congr_right fun _ => ⟨fun ⟨hfit, hin⟩ p w hl hw => ?_, fun h => ⟨?_, ?_⟩⟩
  · have hf := hfit p w hl hw
    exact ⟨hf, (labelRead_iff_inside hw hf).mp (hin p w hl hw)⟩
  · exact fun p w hl hw => (h p w hl hw).1
  · exact fun p w hl hw => (labelRead_iff_inside hw (h p w hl hw).1).mpr (h p w hl hw).2

/-- A reply with a canonical name of 81 bytes: labels of 63 and 17. -/
def longCname : ℕ → Byte :=
  Mem.put (fun _ => 0) 24 (63 :: List.replicate 63 97 ++ 17 :: List.replicate 17 97 ++ [0])

/-- **The claim fails** on it: the second dot is written at `dest[max]`, and more. -/
theorem long_cname_overruns : ¬CnameBounded longCname 512 24 maxHostLen := by
  rintro ⟨-, h, -⟩
  exact absurd (h 80 (by decide +kernel)) (by decide)

end Watt32.Dns
