import Mathlib.Data.Nat.Basic
import Mathlib.Tactic

/-!
# Numbers from digits

The number that a list of symbols denotes in base `b`, the first one the highest, where `v` is the value of a symbol.

* `numeral`: Horner's scheme; `numeral_append`, `numeral_lt`.
* **`numeral_take`**: what the first digits denote.
-/

namespace Numerals

variable {α : Type} {b : ℕ} {v : α → ℕ} {ds es : List α} {d : α}

/-- The number that the digits denote. -/
def numeral (b : ℕ) (v : α → ℕ) (ds : List α) : ℕ := ds.foldl (fun n d => b * n + v d) 0

@[simp] theorem numeral_nil : numeral b v [] = 0 := rfl

theorem numeral_concat : numeral b v (ds ++ [d]) = b * numeral b v ds + v d := by
  simp [numeral, List.foldl_append]

theorem numeral_append : numeral b v (ds ++ es) = numeral b v ds * b ^ es.length + numeral b v es := by
  induction es using List.reverseRecOn with
  | nil => simp
  | append_singleton es e ih =>
    rw [← List.append_assoc, numeral_concat, numeral_concat, ih, List.length_append, List.length_singleton, pow_succ]
    ring

theorem numeral_lt (h : ∀ d ∈ ds, v d < b) : numeral b v ds < b ^ ds.length := by
  induction ds using List.reverseRecOn with
  | nil => simp
  | append_singleton ds d ih =>
    have hd : v d < b := h d (by simp)
    have hds : numeral b v ds < b ^ ds.length := ih fun e he => h e (List.mem_append_left _ he)
    rw [numeral_concat, List.length_append, List.length_singleton, pow_succ]
    calc b * numeral b v ds + v d < b * numeral b v ds + b := by omega
      _ = b * (numeral b v ds + 1) := by ring
      _ ≤ b * b ^ ds.length := Nat.mul_le_mul_left b hds
      _ = b ^ ds.length * b := Nat.mul_comm ..

/-- **The first digits** denote the number without the places of the others. -/
theorem numeral_take (h : ∀ d ∈ ds, v d < b) (k : ℕ) :
    numeral b v (ds.take k) = numeral b v ds / b ^ (ds.length - k) := by
  have hrest : numeral b v (ds.drop k) < b ^ (ds.length - k) := by
    rw [← List.length_drop]
    exact numeral_lt fun d hd => h d (List.mem_of_mem_drop hd)
  conv_rhs => rw [← List.take_append_drop k ds, numeral_append, List.take_append_drop, List.length_drop]
  rw [Nat.mul_comm, Nat.mul_add_div (Nat.lt_of_le_of_lt (Nat.zero_le _) hrest), Nat.div_eq_of_lt hrest, Nat.add_zero]

end Numerals
