import Mathlib.Data.List.Basic
import Mathlib.Tactic
import Watt32.Lib.Mem

/-!
# Programs that read a memory

A `Reads α β` is a computation that reads cells of a memory `ℕ → α`, one after the other, each
index depending on what was read before.

* `cell`, `cells`: one cell, and `n` of them; `eval`, `trace`: its result on a memory and the indices it reads there.
* **`agree_of_trace`**: memories that agree on the indices read give one result and one trace.
* `Within`: all indices read satisfy a predicate; `within_read`, `within_bind` take it apart.
* `andThen`: one after the other, unless the first has no result; `Gives`: there is a result, and all indices read
  satisfy a predicate; **`gives_andThen`**, `gives_bind` take it apart.
-/

/-- A computation that reads memory cells. -/
inductive Reads (α β : Type) where
  | done (b : β)
  | read (a : ℕ) (next : α → Reads α β)

namespace Reads

variable {α β γ : Type}

/-- One after the other. -/
def bind : Reads α β → (β → Reads α γ) → Reads α γ
  | done b, f => f b
  | read a next, f => read a fun x => (next x).bind f

instance : Monad (Reads α) where
  pure := done
  bind := bind

/-- Read one cell. -/
def cell (a : ℕ) : Reads α α := read a done

/-- Read `n` cells. -/
def cells : (a n : ℕ) → Reads α (List α)
  | _, 0 => pure []
  | a, n + 1 => do
    let x ← cell a
    let l ← cells (a + 1) n
    return x :: l

/-- The result. -/
def eval (m : ℕ → α) : Reads α β → β
  | done b => b
  | read a next => (next (m a)).eval m

/-- The indices read. -/
def trace (m : ℕ → α) : Reads α β → List ℕ
  | done _ => []
  | read a next => a :: (next (m a)).trace m

variable {m m' : ℕ → α} {a : ℕ} {b : β} {next : α → Reads α β} {p : Reads α β} {f : β → Reads α γ}

@[simp] theorem eval_pure : eval m (pure b : Reads α β) = b := rfl

@[simp] theorem trace_pure : trace m (pure b : Reads α β) = [] := rfl

@[simp] theorem eval_cell : eval m (cell a) = m a := rfl

@[simp] theorem trace_cell : trace m (cell a) = [a] := rfl

@[simp] theorem eval_bind : ∀ p : Reads α β, eval m (p >>= f) = eval m (f (eval m p))
  | done _ => rfl
  | read a next => eval_bind (next (m a))

@[simp] theorem trace_bind : ∀ p : Reads α β, trace m (p >>= f) = trace m p ++ trace m (f (eval m p))
  | done _ => rfl
  | read a next => congrArg (a :: ·) (trace_bind (next (m a)))

theorem eval_ite {c : Prop} [Decidable c] {q : Reads α β} :
    eval m (if c then p else q) = if c then eval m p else eval m q := apply_ite (eval m) c p q

/-- **What is not read does not matter.** -/
theorem agree_of_trace : ∀ p : Reads α β, (∀ a ∈ trace m p, m' a = m a) →
    eval m' p = eval m p ∧ trace m' p = trace m p
  | done _, _ => ⟨rfl, rfl⟩
  | read a next, h => by
    have ha : m' a = m a := h a (List.mem_cons_self ..)
    obtain ⟨he, ht⟩ := agree_of_trace (next (m a)) fun x hx => h x (List.mem_cons_of_mem a hx)
    refine ⟨?_, ?_⟩
    · show eval m' (next (m' a)) = _
      rw [ha]
      exact he
    · show a :: trace m' (next (m' a)) = _
      rw [ha, ht]
      rfl

/-- All indices read satisfy `P`. -/
def Within (P : ℕ → Prop) (m : ℕ → α) (p : Reads α β) : Prop := ∀ a ∈ trace m p, P a

variable {P Q : ℕ → Prop}

@[simp] theorem within_pure : Within P m (pure b : Reads α β) := fun _ h => absurd h List.not_mem_nil

@[simp] theorem within_cell : Within P m (cell a) ↔ P a := by simp [Within]

@[simp] theorem within_bind : Within P m (p >>= f) ↔ Within P m p ∧ Within P m (f (eval m p)) := by
  simp only [Within, trace_bind, List.forall_mem_append]

@[simp] theorem eval_cells {n : ℕ} : eval m (cells a n) = Mem.slice m a n := by
  induction n generalizing a with
  | zero => rfl
  | succ n ih =>
    have hs : Mem.slice m a (1 + n) = m a :: Mem.slice m (a + 1) n := Mem.slice_add
    rw [cells, eval_bind, eval_bind, ih, Nat.add_comm n 1, hs]
    rfl

theorem within_cells {n : ℕ} : Within P m (cells a n) ↔ ∀ i < n, P (a + i) := by
  induction n generalizing a with
  | zero => exact iff_of_true within_pure fun i hi => absurd hi (Nat.not_lt_zero i)
  | succ n ih =>
    rw [cells, within_bind, within_bind, within_cell, and_iff_left within_pure, ih]
    constructor
    · rintro ⟨hfirst, hrest⟩ i hi
      rcases i with _ | i
      · exact hfirst
      · rw [Nat.add_comm i, ← Nat.add_assoc]
        exact hrest i (by omega)
    · intro h
      refine ⟨h 0 (Nat.succ_pos n), fun i hi => ?_⟩
      rw [Nat.add_assoc, Nat.add_comm 1]
      exact h (i + 1) (by omega)

/-- The cells from `a` on are below a bound. -/
theorem within_cells_lt {n len : ℕ} : Within (· < len) m (cells a n) ↔ (0 < n → a + n ≤ len) := by
  rw [within_cells]
  constructor
  · intro h hn
    have hlast := h (n - 1) (by omega)
    omega
  · intro h i hi
    have := h (by omega)
    omega

theorem Within.mono (h : Within P m p) (hPQ : ∀ a, P a → Q a) : Within Q m p := fun a ha => hPQ a (h a ha)

/-! ## Programs that may have no result -/

/-- Go on with the result, if there is one. -/
def andThen (p : Reads α (Option β)) (f : β → Reads α (Option γ)) : Reads α (Option γ) :=
  p >>= fun o => o.elim (pure none) f

/-- The result is `b`, and all indices read satisfy `P`. -/
def Gives (P : ℕ → Prop) (m : ℕ → α) (p : Reads α (Option β)) (b : β) : Prop := eval m p = some b ∧ Within P m p

/-- One program for each element of a list, as long as there are results. -/
def foldThen {ι : Type} (turn : ι → β → Reads α (Option β)) : List ι → β → Reads α (Option β)
  | [], b => pure (some b)
  | i :: l, b => (turn i b).andThen (foldThen turn l)

variable {c : γ} {q : Reads α (Option β)} {g : β → Reads α (Option γ)}

@[simp] theorem gives_pure {b' : β} : Gives P m (pure (some b) : Reads α (Option β)) b' ↔ b = b' := by
  simp [Gives]

@[simp] theorem not_gives_none : ¬ Gives P m (pure none : Reads α (Option β)) b := by
  simp [Gives]

theorem gives_bind {p : Reads α β} : Gives P m (p >>= g) c ↔ Within P m p ∧ Gives P m (g (eval m p)) c := by
  unfold Gives
  rw [eval_bind, within_bind]
  exact and_left_comm

theorem gives_cell {f : α → Reads α (Option γ)} : Gives P m (cell a >>= f) c ↔ P a ∧ Gives P m (f (m a)) c := by
  rw [gives_bind, within_cell, eval_cell]

theorem gives_cells {n : ℕ} {f : List α → Reads α (Option γ)} :
    Gives P m (cells a n >>= f) c ↔ Within P m (cells a n) ∧ Gives P m (f (Mem.slice m a n)) c := by
  rw [gives_bind, eval_cells]

theorem gives_andThen : Gives P m (q.andThen g) c ↔ ∃ b, Gives P m q b ∧ Gives P m (g b) c := by
  unfold andThen
  rw [gives_bind]
  constructor
  · rintro ⟨hq, hg⟩
    cases hev : eval m q with
    | none =>
      rw [hev] at hg
      exact absurd hg not_gives_none
    | some b =>
      rw [hev] at hg
      exact ⟨b, ⟨hev, hq⟩, hg⟩
  · rintro ⟨b, ⟨hev, hq⟩, hg⟩
    refine ⟨hq, ?_⟩
    rw [hev]
    exact hg

/-- The result is unique. -/
theorem Gives.unique {b' : β} (hb : Gives P m q b) (hb' : Gives P m q b') : b = b' :=
  Option.some.inj (hb.1.symm.trans hb'.1)

end Reads
