import Mathlib.Data.List.Basic
import Mathlib.Data.Nat.ModEq
import Mathlib.Tactic

/-!
# Circular buffers

A queue in `n` slots that are filled in turn, with one of them left unused to tell full from empty.

* `next`: the slot after another; `count`: the slots from one index to another, counted in steps.
* `Holds n slots head tail l`: the slots from `head` up to `tail` hold the elements of `l`.
* `Holds.empty_iff`, **`Holds.full_iff`**: what the two indices say.
* `Holds.write`, `Holds.push`, `Holds.front`, `Holds.pop`: an element is stored, made part of the queue, looked
  at and taken out.
-/

namespace Circular

variable {α : Type*} {n i h t : ℕ} {slots : ℕ → α} {l : List α} {x : α}

/-- The slot after `i`. -/
def next (n i : ℕ) : ℕ := if n ≤ i + 1 then 0 else i + 1

theorem next_eq (hi : i < n) : next n i = (i + 1) % n := by
  unfold next
  split_ifs with hn
  · rw [show i + 1 = n by omega, Nat.mod_self]
  · rw [Nat.mod_eq_of_lt (by omega)]

theorem next_lt (hi : i < n) : next n i < n := by
  rw [next_eq hi]
  exact Nat.mod_lt _ (by omega)

/-- The steps from `i` to `t`, counted on from `k`; `none` when `fuel` of them do not lead there. -/
def count (n t : ℕ) : (fuel i k : ℕ) → Option ℕ
  | 0, i, k => if i = t then some k else none
  | fuel + 1, i, k => if i = t then some k else count n t fuel (next n i) (k + 1)

/-- The slots from `head` up to `tail` hold `l`, and one slot is left. -/
structure Holds (n : ℕ) (slots : ℕ → α) (head tail : ℕ) (l : List α) : Prop where
  head_lt : head < n
  room : l.length < n
  tail_eq : tail = (head + l.length) % n
  slot : ∀ i (hi : i < l.length), slots ((head + i) % n) = l.get ⟨i, hi⟩

/-- Distances under `n` from the same slot lead to different slots. -/
theorem add_mod_inj {j : ℕ} (hi : i < n) (hj : j < n) (he : (h + i) % n = (h + j) % n) : i = j := by
  have hmod : i ≡ j [MOD n] := Nat.ModEq.add_left_cancel' h he
  exact Nat.ModEq.eq_of_lt_of_lt hmod hi hj

namespace Holds

theorem nil (hh : h < n) : Holds n slots h h [] :=
  ⟨hh, by rw [List.length_nil]; omega, (Nat.mod_eq_of_lt hh).symm, fun i hi => absurd hi (Nat.not_lt_zero i)⟩

variable (hl : Holds n slots h t l)
include hl

theorem pos : 0 < n := (Nat.zero_le h).trans_lt hl.head_lt

theorem tail_lt : t < n := hl.tail_eq ▸ Nat.mod_lt _ hl.pos

/-- The slot `i` places after the head is the tail when all elements are before it. -/
theorem add_mod_eq_tail_iff (hi : i < n) : (h + i) % n = t ↔ i = l.length := by
  rw [hl.tail_eq]
  exact ⟨add_mod_inj hi hl.room, fun he => he ▸ rfl⟩

theorem empty_iff : t = h ↔ l = [] := by
  have hmod : (h + 0) % n = h := Nat.mod_eq_of_lt hl.head_lt
  have htail := hl.add_mod_eq_tail_iff hl.pos
  rw [hmod] at htail
  rw [eq_comm, htail, eq_comm, List.length_eq_zero_iff]

/-- **Full** is told by the one unused slot. -/
theorem full_iff : next n t = h ↔ l.length + 1 = n := by
  have hroom := hl.room
  have hmod : next n t = (h + (l.length + 1)) % n := by
    rw [next_eq hl.tail_lt, hl.tail_eq, Nat.mod_add_mod, Nat.add_assoc]
  constructor
  · intro he
    by_contra hne
    have hzero : (h + (l.length + 1)) % n = (h + 0) % n := by
      rw [← hmod, he, Nat.add_zero, Nat.mod_eq_of_lt hl.head_lt]
    have := add_mod_inj (by omega) hl.pos hzero
    omega
  · intro he
    rw [hmod, he, Nat.add_mod_right, Nat.mod_eq_of_lt hl.head_lt]

/-- What is stored at the tail is not part of the queue yet. -/
theorem write (x : α) : Holds n (Function.update slots t x) h t l where
  head_lt := hl.head_lt
  room := hl.room
  tail_eq := hl.tail_eq
  slot i hi := by
    have hne : (h + i) % n ≠ t := fun he =>
      absurd ((hl.add_mod_eq_tail_iff (hi.trans hl.room)).mp he) (by omega)
    rw [Function.update_of_ne hne]
    exact hl.slot i hi

theorem push (hx : slots t = x) (hroom : l.length + 1 < n) : Holds n slots h (next n t) (l ++ [x]) where
  head_lt := hl.head_lt
  room := by simpa using hroom
  tail_eq := by
    rw [next_eq hl.tail_lt, hl.tail_eq, Nat.mod_add_mod, List.length_append, List.length_singleton, Nat.add_assoc]
  slot i hi := by
    rcases lt_or_eq_of_le (show i ≤ l.length by simp at hi; omega) with hlt | rfl
    · rw [hl.slot i hlt]
      simp [List.getElem_append_left hlt]
    · rw [← hl.tail_eq, hx]
      simp

omit hl in
theorem front (hl : Holds n slots h t (x :: l)) : slots h = x := by
  have hslot := hl.slot 0 (Nat.succ_pos _)
  rwa [Nat.add_zero, Nat.mod_eq_of_lt hl.head_lt] at hslot

omit hl in
theorem pop (hl : Holds n slots h t (x :: l)) : Holds n slots (next n h) t l where
  head_lt := next_lt hl.head_lt
  room := (Nat.lt_succ_self _).trans hl.room
  tail_eq := by
    rw [next_eq hl.head_lt, Nat.mod_add_mod, hl.tail_eq, List.length_cons, Nat.add_assoc, Nat.add_comm 1]
  slot i hi := by
    have hslot := hl.slot (i + 1) (Nat.succ_lt_succ hi)
    rw [next_eq hl.head_lt, Nat.mod_add_mod, Nat.add_assoc, Nat.add_comm 1, hslot]
    rfl

/-- The steps from the head to the tail are as many as there are elements. -/
theorem count_eq {fuel k : ℕ} (hfuel : l.length ≤ fuel) : count n t fuel h k = some (k + l.length) := by
  induction l generalizing h k fuel with
  | nil =>
    have he : h = t := (hl.empty_iff.mpr rfl).symm
    cases fuel <;> exact if_pos he
  | cons x l ih =>
    obtain ⟨fuel, rfl⟩ : ∃ m, fuel = m + 1 := ⟨fuel - 1, by rw [List.length_cons] at hfuel; omega⟩
    have hne : h ≠ t := fun he => absurd (hl.empty_iff.mp he.symm) (List.cons_ne_nil x l)
    rw [count, if_neg hne, ih hl.pop (by rw [List.length_cons] at hfuel; omega), List.length_cons]
    congr 1
    omega

end Holds

end Circular
