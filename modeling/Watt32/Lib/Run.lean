import Mathlib.Data.List.Basic
import Mathlib.Tactic

/-!
# Runs of a deterministic machine

A machine is a step function `step : σ → α → σ`; a run feeds it a list of actions.

* `run`: the state reached.
* `Always step P s as`: `P` holds of the state and the action at every step of the run.
* **`run_invariant`**: an invariant kept by every step that meets `Q` holds after every run whose
  steps all meet `Q`; **`always_of_invariant`**, **`always_iff_of_invariant`** carry a law of the
  steps along such an invariant.
* `map_foldlM`, `foldlM_invariant`, `foldlM_rel`: the same for steps that may fail.
-/

namespace Machine

variable {σ α : Type*} (step : σ → α → σ)

/-- The state after the actions `as`. -/
def run (s : σ) (as : List α) : σ := as.foldl step s

/-- `P` holds of the state and the action at every step of the run. -/
def Always (P : σ → α → Prop) : σ → List α → Prop
  | _, [] => True
  | s, a :: as => P s a ∧ Always P (step s a) as

variable {step} {P Q : σ → α → Prop} {I : σ → Prop} {s : σ}

@[simp] theorem run_nil : run step s [] = s := rfl

@[simp] theorem run_cons (a : α) (as : List α) : run step s (a :: as) = run step (step s a) as := rfl

theorem run_append (as bs : List α) : run step s (as ++ bs) = run step (run step s as) bs :=
  List.foldl_append

instance Always.decidable [∀ s a, Decidable (P s a)] :
    ∀ (s : σ) (as : List α), Decidable (Always step P s as)
  | _, [] => .isTrue trivial
  | s, a :: as =>
    haveI := Always.decidable (step s a) as
    inferInstanceAs (Decidable (P s a ∧ Always step P (step s a) as))

theorem Always.mono (h : ∀ s a, P s a → Q s a) :
    ∀ {s : σ} (as : List α), Always step P s as → Always step Q s as
  | _, [], _ => trivial
  | _, _ :: as, ⟨h₁, h₂⟩ => ⟨h _ _ h₁, Always.mono h as h₂⟩

theorem always_true : ∀ {s : σ} (as : List α), Always step (fun _ _ => True) s as
  | _, [] => trivial
  | _, _ :: as => ⟨trivial, always_true as⟩

theorem always_and : ∀ {s : σ} (as : List α),
    Always step (fun s a => P s a ∧ Q s a) s as ↔ Always step P s as ∧ Always step Q s as
  | _, [] => by simp [Always]
  | _, _ :: as => by simp only [Always, always_and as]; tauto

theorem always_append : ∀ {s : σ} (as bs : List α), Always step P s (as ++ bs) ↔
    Always step P s as ∧ Always step P (run step s as) bs
  | _, [], _ => by simp [Always]
  | _, _ :: as, bs => by
    simp only [List.cons_append, Always, run_cons, always_append as bs, and_assoc]

/-- A condition on the actions alone. -/
theorem always_forall {R : α → Prop} : ∀ {s : σ} (as : List α), Always step (fun _ a => R a) s as ↔ ∀ a ∈ as, R a
  | _, [] => by simp [Always]
  | _, a :: as => by simp only [Always, always_forall as, List.forall_mem_cons]

/-- **The invariant rule**: an invariant kept by the steps that meet `Q` holds after every run
whose steps all meet `Q`. -/
theorem run_invariant (hstep : ∀ s a, I s → Q s a → I (step s a)) :
    ∀ {s : σ} (as : List α), I s → Always step Q s as → I (run step s as)
  | _, [], h, _ => h
  | _, _ :: as, h, ⟨hq, hqs⟩ => run_invariant hstep as (hstep _ _ h hq) hqs

/-- **The law rule**: along an invariant, steps that meet `Q` obey `P`. -/
theorem always_of_invariant (hstep : ∀ s a, I s → Q s a → I (step s a) ∧ P s a) :
    ∀ {s : σ} (as : List α), I s → Always step Q s as → Always step P s as
  | _, [], _, _ => trivial
  | _, _ :: as, h, ⟨hq, hqs⟩ =>
    ⟨(hstep _ _ h hq).2, always_of_invariant hstep as (hstep _ _ h hq).1 hqs⟩

/-- **The exact law rule**: when along an invariant a step obeys `P` exactly if it meets `Q`, and
such steps keep the invariant, a run obeys `P` throughout exactly if all its steps meet `Q`. -/
theorem always_iff_of_invariant (hinv : ∀ s a, I s → Q s a → I (step s a))
    (hiff : ∀ s a, I s → (P s a ↔ Q s a)) :
    ∀ {s : σ} (as : List α), I s → (Always step P s as ↔ Always step Q s as)
  | _, [], _ => Iff.rfl
  | s, a :: as, h => by
    refine (and_congr_left' (hiff s a h)).trans (and_congr_right fun hq => ?_)
    exact always_iff_of_invariant hinv hiff as (hinv s a h hq)

/-- The exact law rule in an environment: every step of the run meets `H`. -/
theorem always_iff_under {H : σ → α → Prop}
    (hinv : ∀ s a, I s → H s a → Q s a → I (step s a))
    (hiff : ∀ s a, I s → H s a → (P s a ↔ Q s a)) :
    ∀ {s : σ} (as : List α), I s → Always step H s as →
      (Always step P s as ↔ Always step Q s as)
  | _, [], _, _ => Iff.rfl
  | s, a :: as, h, ⟨hH, hHs⟩ => by
    refine (and_congr_left' (hiff s a h hH)).trans (and_congr_right fun hq => ?_)
    exact always_iff_under hinv hiff as (hinv s a h hH hq) hHs

/-! ## Reachability -/

/-- A run whose steps all meet `P` leads from `s` to `t`. -/
def Reachable (step : σ → α → σ) (P : σ → α → Prop) (s t : σ) : Prop :=
  ∃ as, Always step P s as ∧ run step s as = t

theorem Reachable.refl (s : σ) : Reachable step P s s := ⟨[], trivial, rfl⟩

theorem Reachable.tail {t u : σ} (h : Reachable step P s t) {a : α} (ha : P t a)
    (hu : step t a = u) : Reachable step P s u := by
  obtain ⟨as, has, rfl⟩ := h
  refine ⟨as ++ [a], (always_append as [a]).mpr ⟨has, ha, trivial⟩, ?_⟩
  rw [run_append]
  exact hu

/-! ## Steps that may fail -/

theorem foldlM_singleton {σ α : Type} (f : σ → α → Option σ) (s : σ) (a : α) : [a].foldlM f s = f s a := by
  rw [List.foldlM_cons]
  cases f s a <;> rfl

theorem foldlM_pair {σ α : Type} (f : σ → α → Option σ) (s : σ) (a b : α) :
    [a, b].foldlM f s = (f s a).bind fun t => f t b := by
  rw [List.foldlM_cons]
  cases f s a with
  | none => rfl
  | some t => exact foldlM_singleton f t b

/-- **Simulation**: a map that commutes with the steps commutes with runs. -/
theorem map_foldlM {σ τ α : Type} {f : σ → α → Option σ} {g : τ → α → Option τ} {π : σ → τ}
    (h : ∀ s a, (f s a).map π = g (π s) a) : ∀ (as : List α) (s : σ),
    (as.foldlM f s).map π = as.foldlM g (π s)
  | [], _ => rfl
  | a :: as, s => by
    rw [List.foldlM_cons, List.foldlM_cons, ← h]
    cases f s a with
    | none => rfl
    | some t => exact map_foldlM h as t

/-- **Total runs**: steps that succeed and keep an invariant make runs that do. -/
theorem foldlM_invariant {σ α : Type} {f : σ → α → Option σ} {I : σ → Prop}
    (h : ∀ s a, I s → ∃ t ∈ f s a, I t) : ∀ (as : List α) {s : σ}, I s → ∃ t ∈ as.foldlM f s, I t
  | [], s, hs => ⟨s, rfl, hs⟩
  | a :: as, s, hs => by
    obtain ⟨t, ht, hI⟩ := h s a hs
    rw [List.foldlM_cons, Option.mem_def.mp ht]
    exact foldlM_invariant h as hI

/-- **Frames**: what relates the states before and after each step relates those before and after a run. -/
theorem foldlM_rel {σ α : Type} {f : σ → α → Option σ} {R : σ → σ → Prop} (hrefl : ∀ s, R s s)
    (htrans : ∀ {s t u}, R s t → R t u → R s u) : ∀ {as : List α}, (∀ a ∈ as, ∀ s, ∀ t ∈ f s a, R s t) →
    ∀ {s t : σ}, t ∈ as.foldlM f s → R s t
  | [], _, s, t, ht => by
    obtain rfl : s = t := Option.some_inj.mp ht
    exact hrefl s
  | a :: as, h, s, t, ht => by
    rw [List.foldlM_cons] at ht
    obtain ⟨u, hu, ht⟩ := Option.mem_bind_iff.mp ht
    exact htrans (h a (List.mem_cons_self ..) s u hu)
      (foldlM_rel hrefl htrans (fun b hb => h b (List.mem_cons_of_mem a hb)) ht)

end Machine
