import Mathlib.Data.List.Basic
import Mathlib.Data.List.OfFn
import Mathlib.Tactic

/-!
# Memories

A memory is a total function from indices to cells.

* `blit m d src s n`: `memcpy (m + d, src + s, n)`; with `src = m` also `memmove`.
* `put m d l`: write the list `l` at `d`.
* `slice m a n`: the `n` cells from `a` on.
* `Holds m d S x n`: the cells `d … d + n` hold the elements `x … x + n` of the list `S`.
* Reading after writing: `slice_blit_self`, `slice_blit_disjoint`, `slice_blit_sub`, `slice_put`.
-/

namespace Mem

variable {α : Type*}

/-- Copy `n` cells of `src` from `s` on to `m` from `d` on. -/
def blit (m : ℕ → α) (d : ℕ) (src : ℕ → α) (s n : ℕ) : ℕ → α := fun i =>
  if d ≤ i ∧ i < d + n then src (s + (i - d)) else m i

/-- Write the list `l` from `d` on. -/
def put (m : ℕ → α) (d : ℕ) (l : List α) : ℕ → α := fun i =>
  if d ≤ i then (l[i - d]?).getD (m i) else m i

/-- The `n` cells from `a` on. -/
def slice (m : ℕ → α) (a n : ℕ) : List α := (List.range n).map fun i => m (a + i)

variable {m m' src : ℕ → α} {a d s n k i : ℕ} {l : List α}

@[simp] theorem length_slice : (slice m a n).length = n := by simp [slice]

@[simp] theorem slice_zero : slice m a 0 = [] := rfl

theorem getElem?_slice : (slice m a n)[i]? = if i < n then some (m (a + i)) else none := by
  unfold slice
  split_ifs with h <;> simp [h]

/-- Two slices agree when their cells do. -/
theorem slice_congr (h : ∀ i < n, m (a + i) = m' (d + i)) : slice m a n = slice m' d n := by
  unfold slice
  exact List.map_congr_left fun i hi => h i (List.mem_range.mp hi)

theorem slice_eq_iff : slice m a n = slice m' d n ↔ ∀ i < n, m (a + i) = m' (d + i) := by
  refine ⟨fun h i hi => ?_, slice_congr⟩
  have := congrArg (fun l => l[i]?) h
  simpa only [getElem?_slice, if_pos hi, Option.some.injEq] using this

theorem slice_add : slice m a (n + k) = slice m a n ++ slice m (a + n) k := by
  simp [slice, List.range_add, Function.comp_def, Nat.add_assoc]

theorem drop_slice : (slice m a n).drop k = slice m (a + k) (n - k) := by
  apply List.ext_getElem?
  intro i
  rw [List.getElem?_drop, getElem?_slice, getElem?_slice, Nat.add_assoc]
  exact if_congr (by omega) rfl rfl

theorem take_slice : (slice m a n).take k = slice m a (min k n) := by
  apply List.ext_getElem?
  intro i
  rw [List.getElem?_take, getElem?_slice, getElem?_slice]
  split_ifs <;> first | rfl | omega

theorem blit_of_lt (h : i < d) : blit m d src s n i = m i := if_neg (by omega)

theorem blit_of_ge (h : d + n ≤ i) : blit m d src s n i = m i := if_neg (by omega)

theorem blit_of_mem (h : d ≤ i) (h' : i < d + n) : blit m d src s n i = src (s + (i - d)) :=
  if_pos ⟨h, h'⟩

@[simp] theorem blit_zero : blit m d src s 0 = m := by
  funext i; exact if_neg (by omega)

/-- Reading back the cells just written. -/
theorem slice_blit_self : slice (blit m d src s n) d n = slice src s n := by
  refine slice_congr fun i hi => ?_
  rw [blit_of_mem (by omega) (by omega), Nat.add_sub_cancel_left]

/-- Reading cells inside the range just written. -/
theorem slice_blit_sub (h : d ≤ a) (h' : a + k ≤ d + n) :
    slice (blit m d src s n) a k = slice src (s + (a - d)) k := by
  refine slice_congr fun i hi => ?_
  rw [blit_of_mem (by omega) (by omega)]
  congr 1; omega

/-- Reading cells away from the range just written. -/
theorem slice_blit_disjoint (h : a + k ≤ d ∨ d + n ≤ a) :
    slice (blit m d src s n) a k = slice m a k := by
  refine slice_congr fun i hi => ?_
  rcases h with h | h
  · exact blit_of_lt (by omega)
  · exact blit_of_ge (by omega)

theorem put_of_lt (h : i < d) : put m d l i = m i := if_neg (by omega)

theorem put_of_ge (h : d + l.length ≤ i) : put m d l i = m i := by
  unfold put
  rw [if_pos (by omega), List.getElem?_eq_none (by omega), Option.getD_none]

theorem put_of_mem (h : i < l.length) : put m d l (d + i) = l[i] := by
  unfold put
  rw [if_pos (by omega), Nat.add_sub_cancel_left, List.getElem?_eq_getElem h, Option.getD_some]

/-- Reading back the list just written. -/
theorem slice_put : slice (put m d l) d l.length = l := by
  apply List.ext_getElem (by simp)
  intro i h₁ h₂
  simp only [slice, List.getElem_map, List.getElem_range]
  exact put_of_mem h₂

/-- Reading cells away from the list just written. -/
theorem slice_put_disjoint (h : a + k ≤ d ∨ d + l.length ≤ a) :
    slice (put m d l) a k = slice m a k := by
  refine slice_congr fun i hi => ?_
  rcases h with h | h
  · exact put_of_lt (by omega)
  · exact put_of_ge (by omega)

/-! ## Memory that holds a part of a list -/

/-- The `n` cells from `d` on hold the elements of `S` from `x` on. -/
def Holds (m : ℕ → α) (d : ℕ) (S : List α) (x n : ℕ) : Prop := ∀ i < n, S[x + i]? = some (m (d + i))

variable {S : List α} {x : ℕ}

@[simp] theorem holds_zero : Holds m d S x 0 := fun _ hi => absurd hi (Nat.not_lt_zero _)

/-- A part of what memory holds. -/
theorem Holds.sub (h : Holds m d S x n) (hi : i + k ≤ n) : Holds m (d + i) S (x + i) k := by
  intro j hj
  have := h (i + j) (by omega)
  rwa [← Nat.add_assoc, ← Nat.add_assoc] at this

theorem Holds.mono (h : Holds m d S x n) (hk : k ≤ n) : Holds m d S x k :=
  fun i hi => h i (by omega)

/-- Adjacent parts join. -/
theorem Holds.append (h : Holds m d S x n) (h' : Holds m (d + n) S (x + n) k) :
    Holds m d S x (n + k) := by
  intro i hi
  by_cases hn : i < n
  · exact h i hn
  · have := h' (i - n) (by omega)
    rwa [Nat.add_assoc, Nat.add_sub_cancel' (by omega), Nat.add_assoc,
      Nat.add_sub_cancel' (by omega)] at this

theorem Holds.blit_self (h : Holds src s S x n) : Holds (blit m d src s n) d S x n := by
  intro i hi
  rw [blit_of_mem (by omega) (by omega), Nat.add_sub_cancel_left]
  exact h i hi

theorem Holds.blit_disjoint (h : Holds m a S x k) (hd : a + k ≤ d ∨ d + n ≤ a) :
    Holds (blit m d src s n) a S x k := by
  intro i hi
  have : blit m d src s n (a + i) = m (a + i) := by
    rcases hd with hd | hd
    · exact blit_of_lt (by omega)
    · exact blit_of_ge (by omega)
  rw [this]
  exact h i hi

/-- Moved cells hold the same. -/
theorem Holds.moved (h : Holds m d S x n) (hm : ∀ i < n, m' (a + i) = m (d + i)) :
    Holds m' a S x n := fun i hi => (h i hi).trans (congrArg some (hm i hi).symm)

/-- What memory holds is a part of the list. -/
theorem Holds.le_length (h : Holds m d S x n) (hn : 0 < n) : x + n ≤ S.length := by
  have := List.getElem?_eq_some_iff.mp (h (n - 1) (by omega))
  obtain ⟨hlt, -⟩ := this
  omega

theorem Holds.slice_eq (h : Holds m d S x n) : slice m d n = (S.drop x).take n := by
  apply List.ext_getElem?
  intro i
  rw [getElem?_slice, List.getElem?_take, List.getElem?_drop]
  split_ifs with hi
  · exact (h i hi).symm
  · rfl

end Mem
