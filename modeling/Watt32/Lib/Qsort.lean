import Mathlib.Data.List.Sort
import Mathlib.Tactic

/-!
# `qsort`

A library sort that is known by its contract only.

* `Consistent cmp l`: the answers of the comparison on the elements of `l` fit together.
* `Contract q`: `q` returns a permutation, in order whenever the comparison is consistent.
* **`contract_orElse`**: what an inconsistent comparison gives is not promised, any permutation is
  allowed there.
* `find_of_pairwise`: the first hit in a list that is in order is a least one.
-/

namespace Qsort

variable {α : Type*} {cmp : α → α → ℤ} {l l' : List α}

/-- The answers of `cmp` on the elements of `l` are those of an order. -/
structure Consistent (cmp : α → α → ℤ) (l : List α) : Prop where
  swap : ∀ a ∈ l, ∀ b ∈ l, cmp a b < 0 ↔ 0 < cmp b a
  trans : ∀ a ∈ l, ∀ b ∈ l, ∀ c ∈ l, cmp a b ≤ 0 → cmp b c ≤ 0 → cmp a c ≤ 0

theorem Consistent.total (h : Consistent cmp l) {a b : α} (ha : a ∈ l) (hb : b ∈ l) :
    cmp a b ≤ 0 ∨ cmp b a ≤ 0 := by
  by_contra hno
  have := (h.swap b hb a ha).mpr (by omega)
  omega

theorem Consistent.mono (h : Consistent cmp l) (hsub : ∀ a ∈ l', a ∈ l) : Consistent cmp l' where
  swap a ha b hb := h.swap a (hsub a ha) b (hsub b hb)
  trans a ha b hb c hc := h.trans a (hsub a ha) b (hsub b hb) c (hsub c hc)

/-- Elements that change without changing their comparisons. -/
theorem consistent_map {f : α → α} (hf : ∀ a b, cmp (f a) (f b) = cmp a b) :
    Consistent cmp (l.map f) ↔ Consistent cmp l := by
  constructor
  · intro h
    refine ⟨fun a ha b hb => ?_, fun a ha b hb c hc => ?_⟩
    · rw [← hf a b, ← hf b a]
      exact h.swap _ (List.mem_map_of_mem ha) _ (List.mem_map_of_mem hb)
    · rw [← hf a b, ← hf b c, ← hf a c]
      exact h.trans _ (List.mem_map_of_mem ha) _ (List.mem_map_of_mem hb) _ (List.mem_map_of_mem hc)
  · intro h
    constructor <;> simp only [List.forall_mem_map, hf]
    · exact h.swap
    · exact h.trans

/-- A comparison of keys is consistent. -/
theorem consistent_of_key {key : α → ℕ} (h : ∀ a ∈ l, ∀ b ∈ l,
    (cmp a b < 0 ↔ key a < key b) ∧ (0 < cmp a b ↔ key b < key a)) : Consistent cmp l where
  swap a ha b hb := (h a ha b hb).1.trans (h b hb a ha).2.symm
  trans a ha b hb c hc := by
    have h₁ := (h a ha b hb).2
    have h₂ := (h b hb c hc).2
    have h₃ := (h a ha c hc).2
    omega

/-- The contract of the sort. -/
structure Contract (q : (α → α → ℤ) → List α → List α) : Prop where
  perm : ∀ cmp l, (q cmp l).Perm l
  sorted : ∀ cmp l, Consistent cmp l → (q cmp l).Pairwise fun a b => cmp a b ≤ 0

/-- Insertion sort with the comparison. -/
def insertion (cmp : α → α → ℤ) (l : List α) : List α := l.insertionSort fun a b => cmp a b ≤ 0

theorem insertion_sorted (h : Consistent cmp l) :
    (insertion cmp l).Pairwise fun a b => cmp a b ≤ 0 := by
  -- on the elements of `l` the comparison is a total order
  let r : {a // a ∈ l} → {a // a ∈ l} → Prop := fun a b => cmp a b ≤ 0
  have : Std.Total r := ⟨fun a b => h.total a.2 b.2⟩
  have : IsTrans _ r := ⟨fun a b c => h.trans a a.2 b b.2 c c.2⟩
  have hmap : (l.attach.insertionSort r).map Subtype.val = insertion cmp l := by
    unfold insertion
    rw [List.map_insertionSort r (fun a b => cmp a b ≤ 0) Subtype.val l.attach
      fun a _ b _ => Iff.rfl, List.attach_map_subtype_val]
  rw [← hmap, List.pairwise_map]
  exact List.pairwise_insertionSort r l.attach

theorem contract_insertion : Contract (insertion (α := α)) where
  perm _ _ := List.perm_insertionSort _ _
  sorted _ _ h := insertion_sorted h

open Classical in
/-- `q` where the comparison is consistent, `p` elsewhere. -/
noncomputable def orElse (q : (α → α → ℤ) → List α → List α) (p : List α → List α)
    (cmp : α → α → ℤ) (l : List α) : List α :=
  if Consistent cmp l then q cmp l else p l

/-- **Only consistent comparisons are sorted by.** -/
theorem contract_orElse {q : (α → α → ℤ) → List α → List α} {p : List α → List α}
    (hq : Contract q) (hp : ∀ l, (p l).Perm l) : Contract (orElse q p) where
  perm cmp l := by
    unfold orElse
    split_ifs
    · exact hq.perm cmp l
    · exact hp l
  sorted cmp l h := by
    unfold orElse
    rw [if_pos h]
    exact hq.sorted cmp l h

/-- The first hit in a list that is in order. -/
theorem find_of_pairwise {r : α → α → Prop} {p : α → Bool} {a : α} (hl : l.Pairwise r)
    (h : l.find? p = some a) : ∀ b ∈ l, p b = true → b = a ∨ r a b := by
  induction l with
  | nil => cases h
  | cons x l ih =>
    intro b hb hpb
    rw [List.pairwise_cons] at hl
    rw [List.find?_cons] at h
    rcases List.mem_cons.mp hb with rfl | hbl
    · rw [hpb] at h
      exact .inl (Option.some_inj.mp h)
    · split at h
      · cases h
        exact .inr (hl.1 b hbl)
      · exact ih hl.2 h b hbl hpb

end Qsort
