import Mathlib.Data.List.Basic
import Mathlib.Tactic

/-!
# Options in a memory

Options of the form type, length, value stand one behind the other; `pad` is an option of one byte, and
`fin` ends them.

* `walk m pad fin stop n i`: where the options from `i` on are, before `stop`.
* `last m ps p v`: the value of the last option in `ps` with `p`; **`foldl_field`**: what reading all of
  them one after the other leaves in a field.
* **`filter_walk_congr`**: the options that lie in the part where two memories agree are the same.
-/

namespace Tlv

variable {β γ σ : Type*}

/-- The places of the options from `i` on, `n` steps at most. -/
def walk (m : ℕ → BitVec 8) (pad fin : BitVec 8) (stop : ℕ) : (n : ℕ) → (i : ℕ) → List ℕ
  | 0, _ => []
  | n + 1, i =>
    if stop ≤ i then []
    else if m i = pad then walk m pad fin stop n (i + 1)
    else if m i = fin then []
    else i :: walk m pad fin stop n (i + (m (i + 1)).toNat + 2)

/-- The value of the last element with `p`. -/
def last (ps : List β) (p : β → Bool) (v : β → γ) : Option γ := (ps.filter p).getLast?.map v

variable {m m' : ℕ → BitVec 8} {pad fin : BitVec 8} {stop : ℕ}

theorem le_of_mem_walk : ∀ {n i j : ℕ}, j ∈ walk m pad fin stop n i → i ≤ j
  | 0, _, _, h => by simp [walk] at h
  | n + 1, i, j, h => by
    rw [walk] at h
    split_ifs at h
    · simp at h
    · exact (Nat.le_succ i).trans (le_of_mem_walk h)
    · simp at h
    · rcases List.mem_cons.mp h with rfl | h
      · exact le_rfl
      · exact le_trans (by omega) (le_of_mem_walk h)

theorem walk_of_le {n i : ℕ} (h : stop ≤ i) : walk m pad fin stop n i = [] := by
  cases n with
  | zero => rfl
  | succ n => rw [walk, if_pos h]

/-- An option begins behind the values of those before it. -/
theorem walk_pairwise : ∀ n i : ℕ,
    (walk m pad fin stop n i).Pairwise fun j k => j + (m (j + 1)).toNat + 2 ≤ k
  | 0, _ => List.Pairwise.nil
  | n + 1, i => by
    rw [walk]
    split_ifs
    · exact List.Pairwise.nil
    · exact walk_pairwise n (i + 1)
    · exact List.Pairwise.nil
    · exact List.Pairwise.cons (fun k hk => le_of_mem_walk hk) (walk_pairwise n _)

theorem filter_walk_eq_nil {k n i len : ℕ} (h : len < i + k) :
    (walk m pad fin stop n i).filter (fun j => j + k ≤ len) = [] := by
  rw [List.filter_eq_nil_iff]
  intro j hj
  have := le_of_mem_walk hj
  simp only [decide_eq_true_eq]
  omega

/-- **What lies inside**: if two memories agree on the first `len` cells, they have the same options
there. -/
theorem filter_walk_congr {k len : ℕ} (hk : 2 ≤ k) (h : ∀ i < len, m i = m' i) : ∀ n i : ℕ,
    (walk m pad fin stop n i).filter (fun j => j + k ≤ len) =
      (walk m' pad fin stop n i).filter (fun j => j + k ≤ len)
  | 0, _ => rfl
  | n + 1, i => by
    by_cases hi : i + k ≤ len
    · have ih := filter_walk_congr hk h n
      simp only [walk, h i (by omega), h (i + 1) (by omega)]
      split_ifs
      · rfl
      · exact ih (i + 1)
      · rfl
      · rw [List.filter_cons, List.filter_cons, ih]
    · rw [filter_walk_eq_nil (by omega), filter_walk_eq_nil (by omega)]

/-! ## Reading -/

theorem last_eq_none_iff {ps : List β} {p : β → Bool} {v : β → γ} :
    last ps p v = none ↔ ∀ i ∈ ps, p i = false := by
  simp [last]

/-- Elements without `p` do not matter. -/
theorem last_filter {ps : List β} {p q : β → Bool} {v : β → γ} (h : ∀ i ∈ ps, p i = true → q i = true) :
    last (ps.filter q) p v = last ps p v := by
  have hf : (ps.filter q).filter p = ps.filter p := by
    rw [List.filter_filter]
    refine List.filter_congr fun i hi => ?_
    cases hp : p i with
    | false => rfl
    | true => rw [h i hi hp, Bool.true_and]
  rw [last, last, hf]

theorem last_congr {ps : List β} {p p' : β → Bool} {v v' : β → γ} (hp : ∀ i ∈ ps, p i = p' i)
    (hv : ∀ i ∈ ps, p i = true → v i = v' i) : last ps p v = last ps p' v' := by
  rw [last, last, ← List.filter_congr hp]
  rcases hl : (ps.filter p).getLast? with _ | i
  · rfl
  · have hi := List.mem_filter.mp (List.mem_of_getLast? hl)
    rw [Option.map_some, Option.map_some, hv i hi.1 hi.2]

/-- **What is left in a field**: the value of the last element that sets it, or what was there. -/
theorem foldl_field {f : σ → γ} {g : σ → β → σ} {p : β → Bool} {v : β → γ}
    (h : ∀ s i, f (g s i) = if p i then v i else f s) (ps : List β) (s : σ) :
    f (ps.foldl g s) = (last ps p v).getD (f s) := by
  induction ps using List.reverseRecOn with
  | nil => rfl
  | append_singleton ps i ih =>
    rw [List.foldl_append, List.foldl_cons, List.foldl_nil, h, ih, last, last, List.filter_append]
    cases hp : p i <;> simp [hp]

end Tlv
