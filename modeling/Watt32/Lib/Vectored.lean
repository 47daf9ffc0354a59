import Mathlib.Data.List.Basic
import Mathlib.Tactic

/-!
# Calls on several buffers

A call on one buffer ends with a count or a failure, or does not return. The loop that makes it once for every
buffer stops at a failure and at a count that is not the size of the buffer.

* `Ended`, `Call`: how a call ends; a call.
* `loop`: the calls on the buffers, one after the other.
* `loop_waits`, `loop_fails`, `loop_short`, `loop_full`: what the first call does to the loop; **`loop_single`**.
* `loop_state`: what every call preserves.
-/

namespace Vectored

variable {S E A V : Type*}

/-- How a call ends: the state behind it, the count it returns (nothing for a failure) and what is seen of it. -/
structure Ended (S V : Type*) where
  state : S
  ret : Option ℕ
  seen : V

/-- A call: whether more buffers follow, what it takes from outside, the buffer and the state. Some do not
return. -/
abbrev Call (S E A V : Type*) := Bool → E → A → S → Option (Ended S V)

variable (call : Call S E A V) (size : A → ℕ) (env : ℕ → E)

/-- The calls on the buffers from number `i` on, with a count of `bytes` so far. -/
def loop : ℕ → List A → S → ℕ → Option (Ended S (List V))
  | _, [], s, bytes => some ⟨s, some bytes, []⟩
  | i, a :: as, s, bytes =>
    match call (!as.isEmpty) (env i) a s with
    | none => none
    | some r =>
      match r.ret with
      | none => some ⟨r.state, if bytes = 0 then none else some bytes, [r.seen]⟩
      | some len =>
        if len ≠ size a then some ⟨r.state, some (bytes + len), [r.seen]⟩
        else (loop (i + 1) as r.state (bytes + len)).map fun q => { q with seen := r.seen :: q.seen }

variable {call size env} {i bytes len : ℕ} {a : A} {as : List A} {s s' : S} {v : V} {q : Ended S (List V)}

theorem loop_nil : loop call size env i [] s bytes = some ⟨s, some bytes, []⟩ := rfl

/-- The first call does not return. -/
theorem loop_waits (h : call (!as.isEmpty) (env i) a s = none) : loop call size env i (a :: as) s bytes = none := by
  unfold loop
  rw [h]

/-- The first call fails. -/
theorem loop_fails (h : call (!as.isEmpty) (env i) a s = some ⟨s', none, v⟩) :
    loop call size env i (a :: as) s bytes = some ⟨s', if bytes = 0 then none else some bytes, [v]⟩ := by
  unfold loop
  rw [h]

/-- The first call does not do the whole buffer. -/
theorem loop_short (h : call (!as.isEmpty) (env i) a s = some ⟨s', some len, v⟩) (hlen : len ≠ size a) :
    loop call size env i (a :: as) s bytes = some ⟨s', some (bytes + len), [v]⟩ := by
  unfold loop
  rw [h]
  exact if_pos hlen

/-- The first call does the whole buffer. -/
theorem loop_full (h : call (!as.isEmpty) (env i) a s = some ⟨s', some (size a), v⟩) :
    loop call size env i (a :: as) s bytes =
      (loop call size env (i + 1) as s' (bytes + size a)).map fun q => { q with seen := v :: q.seen } := by
  rw [loop, h]
  exact if_neg (not_not.mpr rfl)

/-- The loop over one buffer is the call. -/
theorem loop_single : loop call size env 0 [a] s 0 =
    (call false (env 0) a s).map fun r => ⟨r.state, r.ret, [r.seen]⟩ := by
  cases h : call false (env 0) a s with
  | none => exact loop_waits h
  | some r =>
    obtain ⟨s', ret, v⟩ := r
    cases ret with
    | none => exact loop_fails h
    | some len =>
      by_cases hlen : len = size a
      · subst hlen
        rw [loop_full h, loop_nil, Nat.zero_add]
        rfl
      · rw [loop_short h hlen, Nat.zero_add]
        rfl

/-- A first call that fails, or stops short, is the whole loop. -/
theorem loop_stops {r : Ended S V} (h : call (!as.isEmpty) (env 0) a s = some r) (hret : r.ret ≠ some (size a)) :
    loop call size env 0 (a :: as) s 0 = some ⟨r.state, r.ret, [r.seen]⟩ := by
  obtain ⟨s', ret, v⟩ := r
  cases ret with
  | none => exact loop_fails h
  | some len => rw [loop_short h fun hlen => hret (congrArg some hlen), Nat.zero_add]

/-- What is seen of the first call comes first. -/
theorem loop_seen (h : loop call size env i (a :: as) s bytes = some q) :
    ∃ r tail, call (!as.isEmpty) (env i) a s = some r ∧ q.seen = r.seen :: tail := by
  cases hcall : call (!as.isEmpty) (env i) a s with
  | none => exact nomatch (loop_waits hcall).symm.trans h
  | some r =>
    refine ⟨r, ?_⟩
    obtain ⟨s', ret, v⟩ := r
    cases ret with
    | none =>
      rw [loop_fails hcall] at h
      exact ⟨[], rfl, (Option.some.inj h) ▸ rfl⟩
    | some len =>
      by_cases hlen : len = size a
      · subst hlen
        rw [loop_full hcall, Option.map_eq_some_iff] at h
        obtain ⟨q', -, rfl⟩ := h
        exact ⟨q'.seen, rfl, rfl⟩
      · rw [loop_short hcall hlen] at h
        exact ⟨[], rfl, (Option.some.inj h) ▸ rfl⟩

/-- What every call preserves. -/
theorem loop_state {I : S → Prop} (hstep : ∀ more j a s r, I s → call more (env j) a s = some r → I r.state)
    (hs : I s) (h : loop call size env i as s bytes = some q) : I q.state := by
  induction as generalizing i s bytes q with
  | nil =>
    rw [loop_nil] at h
    exact (Option.some.inj h) ▸ hs
  | cons a as ih =>
    cases hcall : call (!as.isEmpty) (env i) a s with
    | none => exact nomatch (loop_waits hcall).symm.trans h
    | some r =>
      have hr := hstep _ i a s r hs hcall
      obtain ⟨s', ret, v⟩ := r
      cases ret with
      | none =>
        rw [loop_fails hcall] at h
        exact (Option.some.inj h) ▸ hr
      | some len =>
        by_cases hlen : len = size a
        · subst hlen
          rw [loop_full hcall, Option.map_eq_some_iff] at h
          obtain ⟨q', hq, rfl⟩ := h
          have hq' : I q'.state := ih (show I s' from hr) hq
          exact hq'
        · rw [loop_short hcall hlen] at h
          exact (Option.some.inj h) ▸ hr

/-- The first call does the whole buffer and the second fails. -/
theorem loop_second_fails {b : A} {s₂ : S} {v₂ : V}
    (h : call true (env 0) a s = some ⟨s', some (size a), v⟩)
    (h₂ : call (!as.isEmpty) (env 1) b s' = some ⟨s₂, none, v₂⟩) :
    loop call size env 0 (a :: b :: as) s 0 =
      some ⟨s₂, if size a = 0 then none else some (size a), [v, v₂]⟩ := by
  rw [loop_full h, Nat.zero_add, Nat.zero_add, loop_fails h₂]
  rfl

end Vectored
