import Mathlib.Data.BitVec
import Mathlib.Tactic

/-!
# Ones'-complement sums

The sum of 16-bit words with the carries added, as the checksums of the Internet take it.

* `bigSum`, `littleSum`: the words of a list of bytes added up, in network and in host order.
* `fold`: one round of carries; `Ones n`: the ones'-complement sum of words that add up to `n` is
  all ones.
* **`ones_little`**: the byte order does not matter for it.
* `onesAdd`, `onesTotal`: addition with the carry added at the end, and the words of a list added so;
  **`onesTotal_unique`**: the only 16-bit number that is congruent to the sum and 0 with it.
-/

namespace OnesSum

abbrev Byte := BitVec 8

/-- The words in network order added up, an odd last byte being the upper half of a word. -/
def bigSum : List Byte → ℕ
  | a :: b :: rest => 256 * a.toNat + b.toNat + bigSum rest
  | [a] => 256 * a.toNat
  | [] => 0

/-- The words in host order added up, an odd last byte being the lower half of a word. -/
def littleSum : List Byte → ℕ
  | a :: b :: rest => a.toNat + 256 * b.toNat + littleSum rest
  | [a] => a.toNat
  | [] => 0

/-- One round of carries. -/
def fold (n : ℕ) : ℕ := n % 65536 + n / 65536

/-- The ones'-complement sum of words that add up to `n` is `0xFFFF`. -/
def Ones (n : ℕ) : Prop := 0 < n ∧ n % 65535 = 0

instance : DecidablePred Ones := fun n => inferInstanceAs (Decidable (0 < n ∧ n % 65535 = 0))

variable {n m : ℕ} {l l' : List Byte}

/-! ## Carries -/

theorem fold_mod (n : ℕ) : fold n % 65535 = n % 65535 := by
  simp only [fold]
  omega

theorem fold_pos : 0 < fold n ↔ 0 < n := by
  simp only [fold]
  omega

theorem fold_eq_zero : fold n = 0 ↔ n = 0 := by
  simp only [fold]
  omega

/-- Two rounds are enough below `2 ^ 32`. -/
theorem fold_fold_le (h : n < 2 ^ 32 - 65536) : fold (fold n) ≤ 65535 := by
  simp only [fold]
  omega

@[simp] theorem ones_fold : Ones (fold n) ↔ Ones n := by
  simp only [Ones, fold_pos, fold_mod]

/-- What is carried through is `0xFFFF` when the sum is all ones. -/
theorem ones_iff_eq (h : n ≤ 65535) : Ones n ↔ n = 65535 := by
  simp only [Ones]
  omega

/-- A part of a sum may be carried first. -/
theorem ones_add_congr (hmod : n % 65535 = m % 65535) (hpos : 0 < n ↔ 0 < m) (k : ℕ) :
    Ones (k + n) ↔ Ones (k + m) := by
  simp only [Ones]
  omega

/-! ## Byte order -/

theorem littleSum_mod : littleSum l % 65535 = 256 * bigSum l % 65535 := by
  induction l using bigSum.induct with
  | case1 a b rest ih =>
    simp only [littleSum, bigSum]
    omega
  | case2 a =>
    simp only [littleSum, bigSum]
    omega
  | case3 => rfl

theorem littleSum_pos : 0 < littleSum l ↔ 0 < bigSum l := by
  induction l using bigSum.induct with
  | case1 a b rest ih =>
    simp only [littleSum, bigSum]
    omega
  | case2 a =>
    simp only [littleSum, bigSum]
    omega
  | case3 => rfl

/-- **Byte order**: words in host order and in network order are all ones together. -/
theorem ones_little : Ones (littleSum l) ↔ Ones (bigSum l) := by
  have hmod : littleSum l % 65535 = 256 * bigSum l % 65535 := littleSum_mod
  simp only [Ones, littleSum_pos, hmod]
  omega

theorem littleSum_append (heven : l.length % 2 = 0) :
    littleSum (l ++ l') = littleSum l + littleSum l' := by
  induction l using littleSum.induct with
  | case1 a b rest ih =>
    have hrest : rest.length % 2 = 0 := by
      simp only [List.length_cons] at heven
      omega
    simp only [List.cons_append, littleSum, ih hrest, Nat.add_assoc]
  | case2 a => simp at heven
  | case3 => simp [littleSum]

theorem littleSum_le : littleSum l ≤ 65535 * ((l.length + 1) / 2) := by
  induction l using littleSum.induct with
  | case1 a b rest ih =>
    simp only [littleSum, List.length_cons]
    omega
  | case2 a =>
    simp only [littleSum, List.length_cons, List.length_nil]
    omega
  | case3 => simp [littleSum]

/-! ## End-around carries -/

/-- Ones'-complement addition of 16-bit numbers. -/
def onesAdd (n m : ℕ) : ℕ := if n + m < 65536 then n + m else n + m - 65535

/-- The ones'-complement sum of the words in host order, an odd last byte being the lower half of a word. -/
def onesTotal : List Byte → ℕ
  | a :: b :: rest => onesAdd (a.toNat + 256 * b.toNat) (onesTotal rest)
  | [a] => a.toNat
  | [] => 0

theorem onesTotal_spec (l : List Byte) :
    onesTotal l ≤ 65535 ∧ onesTotal l % 65535 = littleSum l % 65535 ∧ (0 < onesTotal l ↔ 0 < littleSum l) := by
  induction l using onesTotal.induct with
  | case1 a b rest ih =>
    simp only [onesTotal, littleSum, onesAdd]
    split_ifs <;> omega
  | case2 a =>
    rw [onesTotal, littleSum]
    exact ⟨by omega, rfl, Iff.rfl⟩
  | case3 => simp [onesTotal, littleSum]

/-- **The ones'-complement sum** of the words. -/
theorem onesTotal_unique (hle : n ≤ 65535) (hmod : n % 65535 = littleSum l % 65535) (hpos : 0 < n ↔ 0 < littleSum l) :
    n = onesTotal l := by
  have h := onesTotal_spec l
  omega

end OnesSum
