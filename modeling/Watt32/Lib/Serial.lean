import Mathlib.Data.BitVec
import Mathlib.Tactic

/-!
# Serial numbers

Counters of `w` bits that wrap around.

* `SameSide r l m`: seen from `r`, the edges `r + l` and `m` lie on the same side of the wrap.
* **`add_lt_iff_of_side`**, **`add_lt_iff_of_not_side`**: comparing `r + l` and `m` as plain
  numbers compares their distances from `r` on one side of the wrap, and compares them the wrong
  way round across it.
-/

namespace Serial

variable {w : ℕ} {r l m : BitVec w}

/-- The edges `r + l` and `m` lie on the same side of the wrap point, seen from `r`. -/
def SameSide (r l m : BitVec w) : Prop := 2 ^ w ≤ r.toNat + l.toNat ↔ m.toNat < r.toNat

instance (r l m : BitVec w) : Decidable (SameSide r l m) := by unfold SameSide; infer_instance

theorem toNat_add_of_le {a b : BitVec w} (h : 2 ^ w ≤ a.toNat + b.toNat) :
    (a + b).toNat = a.toNat + b.toNat - 2 ^ w := by
  have := a.isLt; have := b.isLt
  rw [BitVec.toNat_add, Nat.mod_eq_sub_mod h, Nat.mod_eq_of_lt (by omega)]

/-- **Plain comparison on one side of the wrap.** -/
theorem add_lt_iff_of_side (h : SameSide r l m) :
    (r + l).toNat < m.toNat ↔ l.toNat < (m - r).toNat := by
  have := r.isLt; have := m.isLt
  unfold SameSide at h
  by_cases hw : 2 ^ w ≤ r.toNat + l.toNat
  · rw [toNat_add_of_le hw, BitVec.toNat_sub_of_lt (BitVec.lt_def.mpr (h.mp hw))]
    have := h.mp hw
    omega
  · have hm : r.toNat ≤ m.toNat := not_lt.mp fun hc => hw (h.mpr hc)
    rw [BitVec.toNat_add_of_lt (not_le.mp hw), BitVec.toNat_sub_of_le (BitVec.le_def.mpr hm)]
    omega

/-- **Plain comparison across the wrap**: the answer is the opposite one. -/
theorem add_lt_iff_of_not_side (h : ¬ SameSide r l m) :
    (r + l).toNat < m.toNat ↔ (m - r).toNat < l.toNat := by
  have := r.isLt; have := m.isLt; have := l.isLt
  unfold SameSide at h
  by_cases hw : 2 ^ w ≤ r.toNat + l.toNat
  · have hm : r.toNat ≤ m.toNat := not_lt.mp fun hc => h ⟨fun _ => hc, fun _ => hw⟩
    rw [toNat_add_of_le hw, BitVec.toNat_sub_of_le (BitVec.le_def.mpr hm)]
    omega
  · have hm : m.toNat < r.toNat := not_le.mp fun hc =>
      h ⟨fun h' => absurd h' hw, fun h' => absurd hc (not_le.mpr h')⟩
    rw [BitVec.toNat_add_of_lt (not_le.mp hw), BitVec.toNat_sub_of_lt (BitVec.lt_def.mpr hm)]
    omega

/-- Across the wrap the two edges differ. -/
theorem ne_of_not_side (h : ¬ SameSide r l m) : l.toNat ≠ (m - r).toNat := by
  have := r.isLt; have := m.isLt; have := l.isLt
  unfold SameSide at h
  by_cases hw : 2 ^ w ≤ r.toNat + l.toNat
  · have hm : r.toNat ≤ m.toNat := not_lt.mp fun hc => h ⟨fun _ => hc, fun _ => hw⟩
    rw [BitVec.toNat_sub_of_le (BitVec.le_def.mpr hm)]
    omega
  · have hm : m.toNat < r.toNat := not_le.mp fun hc =>
      h ⟨fun h' => absurd h' hw, fun h' => absurd hc (not_le.mpr h')⟩
    rw [BitVec.toNat_sub_of_lt (BitVec.lt_def.mpr hm)]
    omega

end Serial
