import Mathlib.Data.List.Basic
import Mathlib.Tactic

/-!
# Holes as intervals

What the loop of `ip4_defragment` makes of a list of holes, whatever they are kept in. A hole goes
from its first to its last missing byte; a fragment ends at the byte behind it.

* `Mark`: a hole, and the place of its record.
* `leftOver`: the holes that a fragment leaves, in the order of the list.
* `Mark.Misses`: a byte is missing in a hole. A rest begins one byte late, so that the first byte of
  its granule is missing too.
* **`misses_leftOver`**, **`exists_open_leftOver`**: a byte that is not in the fragment is still
  missing, and the hole with no end stays, if the fragment does not cut a hole in two.
-/

namespace Watt32.Frag

/-- A hole: the place of its record, and its first and last byte. -/
structure Mark where
  place : ℕ
  start : ℤ
  fin : ℤ
deriving DecidableEq

namespace Mark

/-- The hole meets the fragment, by the test of the loop. -/
def Touches (start fin : ℤ) (k : Mark) : Prop := start ≤ k.fin ∧ k.start ≤ fin

/-- It does not begin before the fragment: its record is to be taken off. -/
def Covers (start fin : ℤ) (k : Mark) : Prop := k.Touches start fin ∧ start ≤ k.start

/-- It ends behind the fragment: the rest gets a new record. -/
def LeavesRest (start fin : ℤ) (k : Mark) : Prop := k.Covers start fin ∧ fin < k.fin

instance {start fin : ℤ} {k : Mark} : Decidable (k.Touches start fin) := inferInstanceAs (Decidable (_ ∧ _))

instance {start fin : ℤ} {k : Mark} : Decidable (k.Covers start fin) := inferInstanceAs (Decidable (_ ∧ _))

instance {start fin : ℤ} {k : Mark} : Decidable (k.LeavesRest start fin) :=
  inferInstanceAs (Decidable (_ ∧ _))

/-- What is left of a hole; `N` is the place for the record of a rest. A record is taken off through
`prev_hole`, which after one that was taken off is that one still: the next record is `stale`, and
stays. -/
def left (N : ℕ) (start fin : ℤ) (stale : Bool) (k : Mark) : List Mark :=
  if k.Covers start fin then
    if stale then [k] else if k.LeavesRest start fin then [⟨N, fin + 1, k.fin⟩] else []
  else if k.Touches start fin then [{ k with fin := start - 1 }]
  else [k]

/-- Whether the record behind `k` is stale. -/
def staleAfter (start fin : ℤ) (stale : Bool) (k : Mark) : Bool :=
  decide (k.Covers start fin ∧ (stale = true ↔ k.LeavesRest start fin))

end Mark

/-- The holes that a fragment leaves. -/
def leftOver (N : ℕ) (start fin : ℤ) : (stale : Bool) → List Mark → List Mark
  | _, [] => []
  | stale, k :: ks => k.left N start fin stale ++ leftOver N start fin (k.staleAfter start fin stale) ks

/-- Those of the list whose records stay. -/
def stays (start fin : ℤ) : (stale : Bool) → List Mark → List Mark
  | _, [] => []
  | stale, k :: ks =>
    (if k.Covers start fin ∧ ¬ stale then [] else [k]) ++ stays start fin (k.staleAfter start fin stale) ks

variable {N : ℕ} {start fin x : ℤ} {stale : Bool} {k c : Mark} {ks : List Mark}

theorem Mark.left_of_not_touches (stale : Bool) (h : ¬ k.Touches start fin) : k.left N start fin stale = [k] := by
  rw [left, if_neg fun hc => h hc.1, if_neg h]

theorem Mark.left_of_before (stale : Bool) (h : k.Touches start fin) (hs : k.start < start) :
    k.left N start fin stale = [{ k with fin := start - 1 }] := by
  rw [left, if_neg fun hc => not_le.mpr hs hc.2, if_pos h]

theorem Mark.left_stale (h : k.Covers start fin) : k.left N start fin true = [k] := by
  rw [left, if_pos h, if_pos rfl]

theorem Mark.left_rest (h : k.LeavesRest start fin) : k.left N start fin false = [⟨N, fin + 1, k.fin⟩] := by
  rw [left, if_pos h.1, if_neg Bool.false_ne_true, if_pos h]

theorem Mark.left_nil (h : k.Covers start fin) (hr : ¬ k.LeavesRest start fin) : k.left N start fin false = [] := by
  rw [left, if_pos h, if_neg Bool.false_ne_true, if_neg hr]

theorem Mark.staleAfter_of_not_covers (stale : Bool) (h : ¬ k.Covers start fin) :
    k.staleAfter start fin stale = false :=
  decide_eq_false fun hc => h hc.1

/-- What is left has the place of the hole, which stays, or is its rest. -/
theorem Mark.mem_left (h : c ∈ k.left N start fin stale) :
    (c.place = k.place ∧ ¬ (k.Covers start fin ∧ ¬ stale = true)) ∨
      c = ⟨N, fin + 1, k.fin⟩ ∧ k.LeavesRest start fin := by
  unfold left at h
  split_ifs at h with hc hs hr ht
  · rw [List.mem_singleton.mp h]
    exact .inl ⟨rfl, fun h => h.2 hs⟩
  · exact .inr ⟨List.mem_singleton.mp h, hr⟩
  · exact absurd h List.not_mem_nil
  · rw [List.mem_singleton.mp h]
    exact .inl ⟨rfl, fun h => hc h.1⟩
  · rw [List.mem_singleton.mp h]
    exact .inl ⟨rfl, fun h => hc h.1⟩

/-- The places of what a fragment leaves. -/
theorem mem_leftOver (h : c ∈ leftOver N start fin stale ks) :
    (∃ e ∈ stays start fin stale ks, c.place = e.place) ∨
      c.place = N ∧ ∃ e ∈ ks, e.LeavesRest start fin ∧ c = ⟨N, fin + 1, e.fin⟩ := by
  induction ks generalizing stale with
  | nil => exact absurd h List.not_mem_nil
  | cons k ks ih =>
    rcases List.mem_append.mp h with h | h
    · rcases Mark.mem_left h with ⟨hp, hc⟩ | ⟨rfl, hr⟩
      · refine .inl ⟨k, ?_, hp⟩
        rw [stays, if_neg hc]
        exact List.mem_cons_self
      · exact .inr ⟨rfl, k, List.mem_cons_self, hr, rfl⟩
    · rcases ih h with ⟨e, he, hp⟩ | ⟨hp, e, he, h'⟩
      · exact .inl ⟨e, List.mem_append_right _ he, hp⟩
      · exact .inr ⟨hp, e, List.mem_cons_of_mem _ he, h'⟩

/-- A fragment that meets no hole leaves all. -/
theorem leftOver_of_not_touches (h : ∀ k ∈ ks, ¬ k.Touches start fin) : leftOver N start fin stale ks = ks := by
  induction ks generalizing stale with
  | nil => rfl
  | cons k ks ih =>
    rw [leftOver, Mark.left_of_not_touches stale (h k List.mem_cons_self),
      ih fun c hc => h c (List.mem_cons_of_mem _ hc)]
    rfl

/-! ## Missing bytes -/

/-- The byte is missing in the hole. -/
def Mark.Misses (x : ℤ) (k : Mark) : Prop := k.start / 8 * 8 ≤ x ∧ x ≤ k.fin

/-- Holes end with a granule, or at `max`. -/
def Granular (max : ℤ) (ks : List Mark) : Prop := ∀ k ∈ ks, k.fin % 8 = 7 ∨ k.fin = max

/-- The fragment does not begin within a hole that goes on behind it. -/
def NotWithin (start fin : ℤ) (ks : List Mark) : Prop :=
  ∀ k ∈ ks, k.Touches start fin → k.start < start → k.fin ≤ fin

variable {max : ℤ}

/-- A byte that is missing in a hole is in the fragment, or behind it, or still missing. -/
theorem Mark.misses_left (hs : start % 8 = 0) (hx : k.Misses x) :
    (start ≤ x ∧ x < fin) ∨ fin ≤ x ∨ ∃ c ∈ k.left N start fin stale, c.Misses x := by
  by_cases h₀ : start ≤ x ∧ x < fin
  · exact .inl h₀
  by_cases h₁ : fin ≤ x
  · exact .inr (.inl h₁)
  refine .inr (.inr ?_)
  have hlt : x < start := by omega
  unfold Misses at hx ⊢
  by_cases ht : k.Touches start fin
  · by_cases hb : k.start < start
    · rw [left_of_before stale ht hb]
      exact ⟨_, List.mem_singleton_self _, hx.1, by dsimp only; omega⟩
    · omega
  · rw [left_of_not_touches stale ht]
    exact ⟨k, List.mem_singleton_self k, hx⟩

/-- When the fragment ends with a granule and does not begin within the hole, what is behind it is
still missing. -/
theorem Mark.misses_left_behind (hf : fin % 8 = 0) (hk : k.fin % 8 = 7 ∨ k.fin = max) (hw : k.Touches start fin → k.start < start → k.fin ≤ fin)
    (hx : k.Misses x) (hm : x < max) (h : fin ≤ x) : ∃ c ∈ k.left N start fin stale, c.Misses x := by
  unfold Misses at hx ⊢
  by_cases ht : k.Touches start fin
  · by_cases hb : k.start < start
    · have := hw ht hb
      omega
    · have hc : k.Covers start fin := ⟨ht, not_lt.mp hb⟩
      cases stale with
      | true =>
        rw [left_stale hc]
        exact ⟨k, List.mem_singleton_self k, hx⟩
      | false =>
        have hr : k.LeavesRest start fin := ⟨hc, by omega⟩
        rw [left_rest hr]
        exact ⟨_, List.mem_singleton_self _, by dsimp only; omega, hx.2⟩
  · rw [left_of_not_touches stale ht]
    exact ⟨k, List.mem_singleton_self k, hx⟩

/-- Each hole leaves its part. -/
theorem exists_leftOver {P : Mark → Prop} (hk : k ∈ ks)
    (h : ∀ stale, ∃ c ∈ k.left N start fin stale, P c) : ∃ c ∈ leftOver N start fin stale ks, P c := by
  induction ks generalizing stale with
  | nil => exact absurd hk List.not_mem_nil
  | cons e ks ih =>
    rcases List.mem_cons.mp hk with rfl | hk
    · obtain ⟨c, hc, hp⟩ := h stale
      exact ⟨c, List.mem_append_left _ hc, hp⟩
    · obtain ⟨c, hc, hp⟩ : ∃ c ∈ leftOver N start fin (e.staleAfter start fin stale) ks, P c := ih hk
      exact ⟨c, List.mem_append_right _ hc, hp⟩

/-- **A byte that was missing** is brought by the fragment, or missing still: behind the fragment, if
the fragment ends with a granule and does not begin within a hole. -/
theorem misses_leftOver (hs : start % 8 = 0) (hg : Granular max ks) (hm : x < max)
    (h : fin ≤ x → fin % 8 = 0 ∧ NotWithin start fin ks) (hx : ∃ k ∈ ks, k.Misses x) :
    ((∃ k ∈ ks, k.Touches start fin) ∧ start ≤ x ∧ x < fin) ∨
      ∃ c ∈ leftOver N start fin stale ks, c.Misses x := by
  obtain ⟨k, hk, hkx⟩ := hx
  by_cases ht : ∃ k ∈ ks, k.Touches start fin
  · by_cases hin : start ≤ x ∧ x < fin
    · exact .inl ⟨ht, hin⟩
    · refine .inr (exists_leftOver hk fun stale => ?_)
      have hpart : (start ≤ x ∧ x < fin) ∨ fin ≤ x ∨ ∃ c ∈ k.left N start fin stale, c.Misses x :=
        Mark.misses_left hs hkx
      rcases hpart with h' | hb | hc
      · exact absurd h' hin
      · obtain ⟨hf, hw⟩ := h hb
        exact Mark.misses_left_behind hf (hg k hk) (hw k hk) hkx hm hb
      · exact hc
  · rw [leftOver_of_not_touches fun k hk hkt => ht ⟨k, hk, hkt⟩]
    exact .inr ⟨k, hk, hkx⟩

/-- **A hole without an end** stays, when the fragment ends before and does not begin within it. -/
theorem exists_open_leftOver (hf : fin < max) (hw : NotWithin start fin ks) (h : ∃ k ∈ ks, k.fin = max) :
    ∃ c ∈ leftOver N start fin stale ks, c.fin = max := by
  obtain ⟨k, hk, hm⟩ := h
  refine exists_leftOver hk fun stale => ?_
  by_cases ht : k.Touches start fin
  · have hc : k.Covers start fin := by
      refine ⟨ht, not_lt.mp fun hb => ?_⟩
      have := hw k hk ht hb
      omega
    cases stale with
    | true => exact ⟨k, by rw [Mark.left_stale hc]; exact List.mem_singleton_self k, hm⟩
    | false =>
      have hr : k.LeavesRest start fin := ⟨hc, by omega⟩
      exact ⟨⟨N, fin + 1, k.fin⟩, by rw [Mark.left_rest hr]; exact List.mem_singleton_self _, hm⟩
  · exact ⟨k, by rw [Mark.left_of_not_touches stale ht]; exact List.mem_singleton_self k, hm⟩

theorem Granular.leftOver (hs : start % 8 = 0) (hg : Granular max ks) :
    Granular max (leftOver N start fin stale ks) := by
  induction ks generalizing stale with
  | nil => exact fun c hc => absurd hc List.not_mem_nil
  | cons k ks ih =>
    intro c hc
    have hk := hg k List.mem_cons_self
    rcases List.mem_append.mp hc with hc | hc
    · unfold Mark.left at hc
      split_ifs at hc
      · rwa [List.mem_singleton.mp hc]
      · rwa [List.mem_singleton.mp hc]
      · exact absurd hc List.not_mem_nil
      · rw [List.mem_singleton.mp hc]
        dsimp only
        omega
      · rwa [List.mem_singleton.mp hc]
    · exact ih (fun e he => hg e (List.mem_cons_of_mem _ he)) c hc

end Watt32.Frag
