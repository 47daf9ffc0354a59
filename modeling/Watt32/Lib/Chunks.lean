import Mathlib.Data.List.Basic
import Mathlib.Tactic

/-!
# Chunks of a list

A list cut into pieces of `b` elements.

* `chunk b l k`: the piece number `k`, from `0`.
* `chunksTo b l k`: the first `k` pieces; **`flatten_chunksTo`**: together they are a prefix.
* `chunk_short`: which piece is shorter than the others.
-/

namespace Chunks

variable {α : Type*} {b : ℕ} {l : List α} {j k : ℕ}

/-- The elements from `b * k` on, at most `b` of them. -/
def chunk (b : ℕ) (l : List α) (k : ℕ) : List α := (l.drop (b * k)).take b

/-- The first `k` chunks. -/
def chunksTo (b : ℕ) (l : List α) (k : ℕ) : List (List α) := (List.range k).map (chunk b l)

@[simp] theorem chunksTo_zero : chunksTo b l 0 = [] := rfl

theorem chunksTo_succ : chunksTo b l (k + 1) = chunksTo b l k ++ [chunk b l k] := by
  unfold chunksTo
  rw [List.range_succ, List.map_append, List.map_singleton]

theorem length_chunk : (chunk b l k).length = min b (l.length - b * k) := by
  unfold chunk
  rw [List.length_take, List.length_drop]

theorem length_chunk_le : (chunk b l k).length ≤ b := by
  rw [length_chunk]
  exact min_le_left _ _

/-- A chunk is short exactly if it reaches the end of the list. -/
theorem chunk_short (hb : 0 < b) : (chunk b l k).length < b ↔ l.length / b ≤ k := by
  have h : k < l.length / b ↔ (k + 1) * b ≤ l.length := Nat.le_div_iff_mul_le hb
  have hmul : (k + 1) * b = b * k + b := by ring
  rw [length_chunk]
  omega

theorem chunk_whole (hb : 0 < b) (hk : k < l.length / b) : (chunk b l k).length = b := by
  have := (chunk_short (k := k) (l := l) hb).not.mpr (by omega)
  have := length_chunk_le (b := b) (l := l) (k := k)
  omega

/-- The chunks so far are a prefix. -/
theorem flatten_chunksTo : (chunksTo b l k).flatten = l.take (b * k) := by
  induction k with
  | zero => simp
  | succ k ih =>
    rw [chunksTo_succ, List.flatten_append, ih, List.flatten_singleton, Nat.mul_succ, List.take_add]
    rfl

/-- All the chunks are the list. -/
theorem flatten_chunks (hb : 0 < b) : (chunksTo b l (l.length / b + 1)).flatten = l := by
  rw [flatten_chunksTo]
  refine List.take_of_length_le ?_
  rw [Nat.mul_succ]
  exact (Nat.lt_mul_div_succ _ hb).le

end Chunks
