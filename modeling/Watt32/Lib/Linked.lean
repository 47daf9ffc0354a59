import Mathlib.Data.List.Basic
import Mathlib.Tactic

/-!
# Linked lists

Places that hold a pointer to the next one, under any reading `next` of the pointers and any naming
`ptr` of the places.

* `Path next ptr p l q`: from the pointer `p` on the places `l` follow each other, and the last one
  holds `q`.
* `Path.congr`: places outside `l` may change.
* `Path.unlink`, `Path.replace`: a place taken off, or another put in for it, by a change of its
  predecessor.
-/

namespace Linked

variable {α ρ : Type*}

/-- From `p` on the places `l` are linked, and the last one points to `q`. -/
def Path (next ptr : α → ρ) : ρ → List α → ρ → Prop
  | p, [], q => p = q
  | p, a :: l, q => p = ptr a ∧ Path next ptr (next a) l q

variable {next next' ptr : α → ρ} {p q : ρ} {l r : List α} {a c : α}

@[simp] theorem path_nil : Path next ptr p [] q ↔ p = q := Iff.rfl

@[simp] theorem path_cons : Path next ptr p (a :: l) q ↔ p = ptr a ∧ Path next ptr (next a) l q := Iff.rfl

theorem path_append : Path next ptr p (l ++ r) q ↔
    ∃ x, Path next ptr p l x ∧ Path next ptr x r q := by
  induction l generalizing p with
  | nil => simp
  | cons a l ih =>
    simp only [List.cons_append, path_cons, ih]
    exact ⟨fun ⟨h, x, h₁, h₂⟩ => ⟨x, ⟨h, h₁⟩, h₂⟩, fun ⟨x, ⟨h, h₁⟩, h₂⟩ => ⟨h, x, h₁, h₂⟩⟩

theorem path_concat : Path next ptr p (l ++ [a]) q ↔ Path next ptr p l (ptr a) ∧ next a = q := by
  simp only [path_append, path_cons, path_nil]
  exact ⟨fun ⟨_, h, rfl, hq⟩ => ⟨h, hq⟩, fun ⟨h, hq⟩ => ⟨_, h, rfl, hq⟩⟩

/-- Only the places of the list matter. -/
theorem Path.congr (h : Path next ptr p l q) (hn : ∀ a ∈ l, next' a = next a) : Path next' ptr p l q := by
  induction l generalizing p with
  | nil => exact h
  | cons a l ih =>
    refine ⟨h.1, ?_⟩
    rw [hn a List.mem_cons_self]
    exact ih h.2 fun c hc => hn c (List.mem_cons_of_mem _ hc)

/-- A list splits behind any of its places. -/
theorem Path.split (h : Path next ptr p (l ++ a :: r) q) :
    Path next ptr p l (ptr a) ∧ Path next ptr (next a) r q := by
  obtain ⟨x, h₁, rfl, h₂⟩ := path_append.mp h
  exact ⟨h₁, h₂⟩

/-- The place `a` is taken off when its predecessor `c` points behind it. -/
theorem Path.unlink (h : Path next ptr p (l ++ c :: a :: r) q)
    (hl : ∀ b ∈ l, next' b = next b) (hr : ∀ b ∈ r, next' b = next b) (hc : next' c = next a) :
    Path next' ptr p (l ++ c :: r) q := by
  obtain ⟨h₁, -, h₂⟩ := h.split
  refine path_append.mpr ⟨_, h₁.congr hl, rfl, ?_⟩
  rw [hc]
  exact h₂.congr hr

/-- The place `n` is put in for `a`. -/
theorem Path.replace {n : α} (h : Path next ptr p (l ++ c :: a :: r) q)
    (hl : ∀ b ∈ l, next' b = next b) (hr : ∀ b ∈ r, next' b = next b)
    (hc : next' c = ptr n) (hn : next' n = next a) : Path next' ptr p (l ++ c :: n :: r) q := by
  obtain ⟨h₁, -, h₂⟩ := h.split
  refine path_append.mpr ⟨_, h₁.congr hl, rfl, hc, ?_⟩
  rw [hn]
  exact h₂.congr hr

end Linked
