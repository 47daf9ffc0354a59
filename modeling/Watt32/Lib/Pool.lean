import Mathlib.Data.List.ReduceOption
import Mathlib.Tactic

/-!
# Pools of numbered items

Items lie in slots in no order; each has a number, and a queue of them is kept by the numbers alone.

* `Holds slots q`: the slots hold the items of `q`, which are in the order of their numbers.
* **`Holds.put`**, **`Holds.take`**: an item with a new largest number goes to any free slot; the item with the
  smallest number is taken from wherever it is.
* `Holds.mem_iff`, `Holds.eq_cons`, `Holds.full_iff`, `Holds.nil_iff`: the queue as seen in the slots.
-/

namespace Pool

variable {κ α : Type*} [LinearOrder κ]

/-- The slots hold `q`. -/
structure Holds (slots : List (Option (κ × α))) (q : List (κ × α)) : Prop where
  perm : slots.reduceOption.Perm q
  sorted : q.Pairwise fun e e' => e.1 < e'.1

variable {slots pre post : List (Option (κ × α))} {q : List (κ × α)} {e : κ × α} {n : κ} {x : α}

theorem holds_free (h : ∀ s ∈ slots, s = none) : Holds slots [] := by
  refine ⟨List.Perm.of_eq (List.eq_nil_iff_forall_not_mem.mpr fun e he => ?_), .nil⟩
  cases h _ (List.reduceOption_mem_iff.mp he)

namespace Holds

theorem put (h : Holds (pre ++ none :: post) q) (hn : ∀ e ∈ q, e.1 < n) :
    Holds (pre ++ some (n, x) :: post) (q ++ [(n, x)]) where
  perm := by
    have hperm := h.perm
    rw [List.reduceOption_append, List.reduceOption_cons_of_none] at hperm
    rw [List.reduceOption_append, List.reduceOption_cons_of_some]
    calc (pre.reduceOption ++ (n, x) :: post.reduceOption).Perm ((n, x) :: (pre.reduceOption ++ post.reduceOption)) :=
          List.perm_middle
      List.Perm _ ((n, x) :: q) := hperm.cons _
      List.Perm _ (q ++ [(n, x)]) := (List.perm_append_singleton _ _).symm
  sorted := List.pairwise_append.mpr ⟨h.sorted, List.pairwise_singleton .., fun e he last hlast => by
    rw [List.mem_singleton.mp hlast]
    exact hn e he⟩

theorem take (h : Holds (pre ++ some e :: post) (e :: q)) : Holds (pre ++ none :: post) q where
  perm := by
    have hperm := h.perm
    rw [List.reduceOption_append, List.reduceOption_cons_of_some] at hperm
    rw [List.reduceOption_append, List.reduceOption_cons_of_none]
    exact (List.perm_middle.symm.trans hperm).cons_inv
  sorted := h.sorted.of_cons

variable (h : Holds slots q)
include h

theorem mem_iff : some e ∈ slots ↔ e ∈ q := List.reduceOption_mem_iff.symm.trans h.perm.mem_iff

theorem nil_iff : q = [] ↔ ∀ s ∈ slots, s = none := by
  constructor
  · rintro rfl s hs
    cases s with
    | none => rfl
    | some e => cases h.mem_iff.mp hs
  · intro hfree
    refine List.eq_nil_iff_forall_not_mem.mpr fun e he => ?_
    cases hfree _ (h.mem_iff.mpr he)

/-- An item with the smallest number is the first of the queue. -/
theorem eq_cons (he : some e ∈ slots) (hmin : ∀ e', some e' ∈ slots → e.1 ≤ e'.1) : ∃ q', q = e :: q' := by
  cases hq : q with
  | nil =>
    have := h.mem_iff.mp he
    rw [hq] at this
    cases this
  | cons first q' =>
    subst hq
    rcases List.mem_cons.mp (h.mem_iff.mp he) with rfl | hrest
    · exact ⟨q', rfl⟩
    · have hlt := List.rel_of_pairwise_cons h.sorted hrest
      exact absurd (hmin first (h.mem_iff.mpr (List.mem_cons_self ..))) (not_le.mpr hlt)

theorem length_eq : slots.countP Option.isSome = q.length := by
  rw [← h.perm.length_eq, List.reduceOption_length_eq, List.countP_eq_length_filter]

/-- The queue is as long as the pool when no slot is free. -/
theorem full_iff : q.length = slots.length ↔ none ∉ slots := by
  rw [← h.length_eq, List.countP_eq_length]
  constructor
  · intro hall hnone
    exact absurd (hall none hnone) (by simp)
  · intro hno s hs
    cases s with
    | none => exact absurd hs hno
    | some e => rfl

theorem length_le : q.length ≤ slots.length := h.length_eq ▸ List.countP_le_length

end Holds

end Pool
