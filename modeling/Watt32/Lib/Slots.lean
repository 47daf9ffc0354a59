import Mathlib.Logic.Function.Basic
import Mathlib.Tactic

/-!
# Tables of slots

An array of slots indexed by integers, of which some are live.

* `find`: the loop that looks for a slot in a range.
* `move`: one slot copied over another.
* `Distinct key L m`: the live slots have distinct keys. It is kept when a slot is dropped by moving
  another into the hole (`Distinct.move`), when a new key is put (`Distinct.put`) and when slots
  change but for their keys (`Distinct.congr`).
-/

namespace Slots

variable {α κ : Type*}

/-- The first of the `n` indices from `i` on with `p`. -/
def find (p : ℤ → Bool) : (n : ℕ) → (i : ℤ) → Option ℤ
  | 0, _ => none
  | n + 1, i => if p i then some i else find p n (i + 1)

section Find

variable {p : ℤ → Bool} {n : ℕ} {i k : ℤ}

theorem find_eq_some (h : find p n i = some k) :
    i ≤ k ∧ k < i + n ∧ p k = true ∧ ∀ j, i ≤ j → j < k → p j = false := by
  induction n generalizing i with
  | zero => cases h
  | succ n ih =>
    unfold find at h
    split_ifs at h with hp
    · cases h
      exact ⟨le_rfl, by omega, hp, fun j _ _ => by omega⟩
    · obtain ⟨h₁, h₂, h₃, h₄⟩ := ih h
      refine ⟨by omega, by push_cast; omega, h₃, fun j hj hjk => ?_⟩
      rcases eq_or_lt_of_le hj with rfl | hlt
      · simpa using hp
      · exact h₄ j (by omega) hjk

theorem find_eq_none : find p n i = none ↔ ∀ j, i ≤ j → j < i + n → p j = false := by
  induction n generalizing i with
  | zero => exact iff_of_true rfl fun j _ _ => by simp at *; omega
  | succ n ih =>
    unfold find
    constructor
    · intro h j hj hjn
      split_ifs at h with hp
      rcases eq_or_lt_of_le hj with rfl | hlt
      · simpa using hp
      · exact ih.mp h j (by omega) (by push_cast at hjn; omega)
    · intro h
      rw [if_neg (by rw [h i le_rfl (by push_cast; omega)]; simp)]
      exact ih.mpr fun j hj hjn => h j (by omega) (by push_cast; omega)

/-- What is found is the first slot with `p`. -/
theorem find_eq_some_iff : find p n i = some k ↔
    i ≤ k ∧ k < i + n ∧ p k = true ∧ ∀ j, i ≤ j → j < k → p j = false := by
  refine ⟨find_eq_some, fun ⟨h₁, h₂, h₃, h₄⟩ => ?_⟩
  cases hf : find p n i with
  | none =>
    rw [find_eq_none.mp hf k h₁ h₂] at h₃
    cases h₃
  | some l =>
    obtain ⟨h₅, -, h₇, h₈⟩ := find_eq_some hf
    rcases lt_trichotomy k l with hlt | heq | hlt
    · rw [h₈ k h₁ hlt] at h₃
      cases h₃
    · rw [heq]
    · rw [h₄ l h₅ hlt] at h₇
      cases h₇

theorem find_isSome : (find p n i).isSome ↔ ∃ j, i ≤ j ∧ j < i + n ∧ p j = true := by
  rw [← not_iff_not, Option.not_isSome_iff_eq_none, find_eq_none]
  constructor
  · rintro h ⟨j, hj, hjn, hp⟩
    rw [h j hj hjn] at hp
    cases hp
  · intro h j hj hjn
    exact Bool.eq_false_iff.mpr fun hp => h ⟨j, hj, hjn, hp⟩

end Find

/-- Slot `s` copied over slot `d`. -/
def move (m : ℤ → α) (d s : ℤ) : ℤ → α := Function.update m d (m s)

@[simp] theorem move_self (m : ℤ → α) (i : ℤ) : move m i i = m := Function.update_eq_self i m

theorem move_apply (m : ℤ → α) (d s j : ℤ) : move m d s j = if j = d then m s else m j :=
  Function.update_apply m d (m s) j

/-- The live slots have distinct keys. -/
def Distinct (key : α → κ) (L : ℤ → Prop) (m : ℤ → α) : Prop :=
  ∀ i j, L i → L j → key (m i) = key (m j) → i = j

section Distinct

variable {key : α → κ} {L L' : ℤ → Prop} {m m' : ℤ → α}

theorem Distinct.mono (h : Distinct key L m) (hL : ∀ i, L' i → L i) : Distinct key L' m :=
  fun i j hi hj => h i j (hL i hi) (hL j hj)

theorem Distinct.congr (h : Distinct key L m) (hkey : ∀ i, L i → key (m' i) = key (m i)) :
    Distinct key L m' := by
  intro i j hi hj heq
  rw [hkey i hi, hkey j hj] at heq
  exact h i j hi hj heq

/-- Slot `d` is overwritten with slot `s`, which is dropped. -/
theorem Distinct.move {d s : ℤ} (h : Distinct key L m) (hs : L s)
    (hL : ∀ i, L' i → i ≠ d → L i ∧ i ≠ s) : Distinct key L' (move m d s) := by
  intro i j hi hj heq
  rw [move_apply, move_apply] at heq
  split_ifs at heq with h₁ h₂ h₂
  · rw [h₁, h₂]
  · obtain ⟨hj, hjs⟩ := hL j hj h₂
    exact absurd (h s j hs hj heq).symm hjs
  · obtain ⟨hi, his⟩ := hL i hi h₁
    exact absurd (h i s hi hs heq) his
  · exact h i j (hL i hi h₁).1 (hL j hj h₂).1 heq

/-- Slot `i` is filled with a new key. -/
theorem Distinct.put {i : ℤ} {x : α} (h : Distinct key L m)
    (hnew : ∀ j, L j → j ≠ i → key (m j) ≠ key x) (hL : ∀ j, L' j → j = i ∨ L j) :
    Distinct key L' (Function.update m i x) := by
  intro j k hj hk heq
  rw [Function.update_apply, Function.update_apply] at heq
  split_ifs at heq with h₁ h₂ h₂
  · rw [h₁, h₂]
  · exact absurd heq.symm (hnew k ((hL k hk).resolve_left h₂) h₂)
  · exact absurd heq (hnew j ((hL j hj).resolve_left h₁) h₁)
  · exact h j k ((hL j hj).resolve_left h₁) ((hL k hk).resolve_left h₂) heq

end Distinct

end Slots
