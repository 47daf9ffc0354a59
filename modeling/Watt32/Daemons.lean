import Watt32.Lib.Run
import Watt32.Lib.Slots
import Watt32.Timer

/-!
# Background daemons

`daemon_add`, `daemon_del`, `daemon_clear` and `daemon_run` of `run.c`, with `tcp_tick` around
`daemon_run`. Functions are the elements of a type `F`. A step is one call of the list functions, from
wherever it is made, one call of `daemon_run`, or the return of the daemon that runs.

* `State`: the list, the timer, and a frame for each `daemon_run` that is waiting for its daemon.
* `DaemonLaw`: a daemon is called if it was added and not deleted since, once in an outermost pass and
  not while it runs; a pass leaves out none.
* `Orderly`: the steps that keep to the law.
* **`daemons_called`**: in a run of orderly steps every step obeys the law.
-/

namespace Watt32.Daemons

open Slots Machine Timer

variable {F : Type} [DecidableEq F]

/-! ## The list -/

/-- `struct run_list` as `daemon_list` uses it. -/
structure RunList (F : Type) where
  func : Option F := none
  running : Bool := false

/-- `DIM (daemon_list)`. -/
def daemonTop : ℕ := 20

/-- `daemon_add`. -/
def daemonAdd (list : ℤ → RunList F) (func : F) : (ℤ → RunList F) × Bool :=
  if (find (fun i => (list i).func = some func) daemonTop 0).isSome then (list, true)
  else
    match find (fun i => (list i).func = none) daemonTop 0 with
    | some i => (Function.update list i { func := some func }, true)
    | none => (list, false)

/-- `daemon_del`; `none` is `NULL`. -/
def daemonDel (list : ℤ → RunList F) (func : Option F) : (ℤ → RunList F) × Bool :=
  match find (fun i => func = none ∨ func = (list i).func) daemonTop 0 with
  | some i => (Function.update list i {}, true)
  | none => (list, false)

/-- `daemon_clear`. -/
def daemonClear (list : ℤ → RunList F) : ℤ → RunList F := (daemonDel list none).1

/-! ## Runs -/

/-- A `daemon_run` that has called a daemon: the slot, the function (which the source does not keep),
whether `tcp_tick` made the call, and `rc`. -/
structure Frame (F : Type) where
  slot : ℤ
  func : F
  byTick : Bool
  rc : ℕ

/-- The list, `daemon_timer`, `tick_active` and the frames, the inner one first. `live` (what was added
and not deleted since), `called` (in this outermost pass) and `kept` (live since its start) are not in
the source. -/
structure State (F : Type) where
  list : ℤ → RunList F := fun _ => {}
  timer : BitVec 32 := 0
  tickActive : Bool := false
  frames : List (Frame F) := []
  live : List F := []
  called : List F := []
  kept : List F := []

/-- The slots of the frames. -/
def State.slots (s : State F) : List ℤ := s.frames.map Frame.slot

/-- What happens, with the time of the clock. -/
inductive Event (F : Type)
  | add (func : F)
  | del (func : F)
  | clear
  | run (now : BitVec 32)
  | tick (now : BitVec 32)
  | ret (now : BitVec 32)

/-- A place in the loop of `daemon_run`: the state without its frame, and the frame to be. -/
structure Entry (F : Type) where
  s : State F
  now : BitVec 32
  i : ℤ
  byTick : Bool
  rc : ℕ

/-- The test of `daemon_timer`. -/
def due (s : State F) (now : BitVec 32) : Bool := s.timer = 0 ∨ chkTimeout now s.timer

/-- A `daemon_run` starts; an outermost one starts a pass. -/
def State.start (s : State F) : State F :=
  if s.frames = [] then { s with called := [], kept := s.live } else s

/-- Where a step is in the loop of `daemon_run`, if it is. -/
def entry (s : State F) : Event F → Option (Entry F)
  | .run now => if due s now then some ⟨s.start, now, 0, false, 0⟩ else none
  | .tick now =>
    -- `tcp_tick` is not reentered
    if s.tickActive = false ∧ due s now then
      some ⟨{ s.start with tickActive := true }, now, 0, true, 0⟩ else none
  | .ret now =>
    match s.frames with
    | [] => none
    | fr :: rest =>
      some ⟨{ s with list := Function.update s.list fr.slot { s.list fr.slot with running := false },
                     frames := rest }, now, fr.slot + 1, fr.byTick, fr.rc + 1⟩
  | _ => none

/-- The next daemon of the loop. -/
def Entry.next (en : Entry F) : Option (ℤ × F) :=
  (find (fun i => (en.s.list i).func.isSome ∧ (en.s.list i).running = false)
    (daemonTop - en.i).toNat en.i).bind fun i => (en.s.list i).func.map fun f => (i, f)

/-- The loop of `daemon_run` up to the next call, or to its end. -/
def Entry.loop (en : Entry F) : State F :=
  match en.next with
  | some (i, f) => { en.s with
      list := Function.update en.s.list i { en.s.list i with running := true }
      frames := ⟨i, f, en.byTick, en.rc⟩ :: en.s.frames
      called := f :: en.s.called }
  | none => { en.s with
      timer := setTimeout en.now 500
      tickActive := if en.byTick then false else en.s.tickActive }

/-- One step. -/
def step (s : State F) (ev : Event F) : State F :=
  match ev with
  | .add f => { s with
      list := (daemonAdd s.list f).1
      live := if (daemonAdd s.list f).2 then s.live.insert f else s.live }
  | .del f => { s with
      list := (daemonDel s.list (some f)).1
      live := s.live.filter (· ≠ f)
      kept := s.kept.filter (· ≠ f) }
  | .clear => { s with list := daemonClear s.list, live := [], kept := [] }
  | _ =>
    match entry s ev with
    | none => s
    | some en => en.loop

/-! ## The law -/

/-- A daemon that is called was added and not deleted since, was not called in this outermost pass and
does not run; at the end of an outermost pass all that were there throughout have been called. -/
def DaemonLaw (s : State F) (ev : Event F) : Prop :=
  ∀ en, entry s ev = some en →
    match en.next with
    | some (_, f) => f ∈ en.s.live ∧ f ∉ en.s.called ∧ ∀ fr ∈ en.s.frames, fr.func ≠ f
    | none => en.s.frames = [] → ∀ f ∈ en.s.kept, f ∈ en.s.called

/-- A `daemon_run` inside a daemon finds only slots that the ones around it have passed, with
functions that were not called. -/
def Undisturbed (s : State F) : Prop :=
  s.frames = [] ∨ ∀ (i : ℤ) (f : F), 0 ≤ i → i < daemonTop → (s.list i).func = some f →
    (s.list i).running = false → f ∉ s.called ∧ ∀ k ∈ s.slots, i ≤ k

/-- The list is cleared when it has one entry at most, the first; `daemon_run` is undisturbed; and what
is added goes to a slot that will be come to at most once in this pass, or not at all when it was
called in it. -/
def Orderly (s : State F) : Event F → Prop
  | .add f => (find (fun i => (s.list i).func = some f) daemonTop 0).isSome = true ∨
    ∀ i, find (fun i => (s.list i).func = none) daemonTop 0 = some i →
      if f ∈ s.called then ∀ k ∈ s.slots, i ≤ k else s.slots.countP (· < i) ≤ 1
  | .clear => ∀ i : ℤ, 1 ≤ i → i < daemonTop → (s.list i).func = none
  | .run now => due s now = true → Undisturbed s
  | .tick now => s.tickActive = false → due s now = true → Undisturbed s
  | _ => True

/-! ## The invariant -/

/-- The list holds what is live; running daemons have a frame; with `fs` the slots that the loops have
come to, what may be called again lies where they have been, and nothing was left out. -/
structure Ok (s : State F) (fs : List ℤ) : Prop where
  distinct : ∀ (i j : ℤ) (f : F), 0 ≤ i → i < daemonTop → 0 ≤ j → j < daemonTop →
    (s.list i).func = some f → (s.list j).func = some f → i = j
  live : ∀ f, f ∈ s.live ↔ ∃ i : ℤ, 0 ≤ i ∧ i < daemonTop ∧ (s.list i).func = some f
  nested : s.slots.Pairwise (· ≤ ·)
  low : ∀ k ∈ s.slots, 0 ≤ k
  owner : ∀ i : ℤ, 0 ≤ i → i < daemonTop → (s.list i).running = true →
    i ∈ s.slots ∧ ∃ f ∈ s.called, (s.list i).func = some f
  stack : ∀ fr ∈ s.frames, fr.func ∈ s.called
  once : ∀ (i : ℤ) (f : F), 0 ≤ i → i < daemonTop → (s.list i).func = some f → (s.list i).running = false →
    f ∈ s.called → ∀ k ∈ fs, i ≤ k
  twice : ∀ (i : ℤ) (f : F), 0 ≤ i → i < daemonTop → (s.list i).func = some f → (s.list i).running = false →
    f ∉ s.called → fs.countP (· < i) ≤ 1
  done : ∀ o, fs.getLast? = some o → ∀ f ∈ s.kept, ∃ i : ℤ, 0 ≤ i ∧ i < daemonTop ∧
    (s.list i).func = some f ∧ (i ≤ o → f ∈ s.called)

variable {s : State F} {fs : List ℤ} {en : Entry F} {i : ℤ} {f : F}

omit [DecidableEq F] in
theorem DaemonLaw.live {ev : Event F} (h : DaemonLaw s ev) (he : entry s ev = some en)
    (hnext : en.next = some (i, f)) : f ∈ en.s.live := by
  have hlaw := h en he
  rw [hnext] at hlaw
  exact hlaw.1

omit [DecidableEq F] in
/-- The timer and `tick_active` are not looked at. -/
theorem Ok.congr {t : State F} (h : Ok s fs) (hlist : t.list = s.list) (hframes : t.frames = s.frames)
    (hlive : t.live = s.live) (hcalled : t.called = s.called) (hkept : t.kept = s.kept) : Ok t fs := by
  have hslots : t.slots = s.slots := congrArg (List.map Frame.slot) hframes
  obtain ⟨h₁, h₂, h₃, h₄, h₅, h₆, h₇, h₈, h₉⟩ := h
  refine ⟨?_, ?_, ?_, ?_, ?_, ?_, ?_, ?_, ?_⟩ <;>
    simp only [hlist, hframes, hlive, hcalled, hkept, hslots] <;> assumption

/-- No two slots behind a slot that one loop is yet to pass. -/
theorem countP_cons_le {k i : ℤ} {l : List ℤ} (h : (k :: l).countP (· < i) ≤ 1) (hk : k < i) :
    ∀ j ∈ l, i ≤ j := by
  rw [List.countP_cons_of_pos (by simpa using hk)] at h
  have hzero : l.countP (· < i) = 0 := by omega
  intro j hj
  have := List.countP_eq_zero.mp hzero j hj
  simpa using this

/-! ### The list functions -/

omit [DecidableEq F] in
/-- A change of one slot. -/
theorem update_func (list : ℤ → RunList F) (i j : ℤ) (r : RunList F) :
    (Function.update list i r j) = if j = i then r else list j := Function.update_apply list i r j

/-- **`daemon_add`** puts a new function into a free slot. -/
theorem add_ok (h : Ok s s.slots) (ho : Orderly s (.add f)) : Ok (step s (.add f)) (step s (.add f)).slots := by
  change Ok { s with list := _, live := _ } s.slots
  unfold Orderly at ho
  unfold daemonAdd
  by_cases hin : (find (fun i => (s.list i).func = some f) daemonTop 0).isSome = true
  · rw [if_pos hin]
    obtain ⟨j, hj, hjt, hf⟩ := find_isSome.mp hin
    have hlive : f ∈ s.live := (h.live f).mpr ⟨j, hj, by omega, of_decide_eq_true hf⟩
    rw [if_pos rfl, List.insert_of_mem hlive]
    exact h
  rw [if_neg hin]
  cases hfree : find (fun i => (s.list i).func = none) daemonTop 0 with
  | none => exact h
  | some i =>
    dsimp only
    rw [if_pos rfl]
    obtain ⟨hi, hit, hnone, -⟩ := find_eq_some hfree
    have hnone := of_decide_eq_true hnone
    have habsent : ∀ j : ℤ, 0 ≤ j → j < daemonTop → (s.list j).func ≠ some f := by
      intro j hj hjt hf
      exact hin (find_isSome.mpr ⟨j, hj, by omega, decide_eq_true hf⟩)
    have hcond := ho.resolve_left hin i hfree
    refine ⟨?_, ?_, h.nested, h.low, ?_, h.stack, ?_, ?_, ?_⟩
    · intro j k g hj hjt hk hkt hg hg'
      dsimp only at hg hg'
      rw [update_func] at hg hg'
      split_ifs at hg hg' with h₁ h₂ h₂
      · rw [h₁, h₂]
      · exact absurd (Option.some.inj hg ▸ hg') (habsent k hk hkt)
      · exact absurd (Option.some.inj hg' ▸ hg) (habsent j hj hjt)
      · exact h.distinct j k g hj hjt hk hkt hg hg'
    · intro g
      rw [List.mem_insert_iff, h.live]
      constructor
      · rintro (rfl | ⟨j, hj, hjt, hg⟩)
        · exact ⟨i, hi, by omega, by dsimp only; rw [update_func, if_pos rfl]⟩
        · refine ⟨j, hj, hjt, ?_⟩
          dsimp only
          rw [update_func, if_neg, hg]
          rintro rfl
          rw [hnone] at hg
          cases hg
      · rintro ⟨j, hj, hjt, hg⟩
        dsimp only at hg
        rw [update_func] at hg
        split_ifs at hg with h₁
        · exact .inl (Option.some.inj hg).symm
        · exact .inr ⟨j, hj, hjt, hg⟩
    · intro j hj hjt hrun
      dsimp only at hrun ⊢
      rw [update_func] at hrun ⊢
      split_ifs at hrun ⊢ with h₁
      exact h.owner j hj hjt hrun
    · intro j g hj hjt hg hrun hcalled
      dsimp only at hg hrun
      rw [update_func] at hg hrun
      split_ifs at hg hrun with h₁
      · obtain rfl := Option.some.inj hg
        rw [if_pos hcalled] at hcond
        exact h₁ ▸ hcond
      · exact h.once j g hj hjt hg hrun hcalled
    · intro j g hj hjt hg hrun hcalled
      dsimp only at hg hrun
      rw [update_func] at hg hrun
      split_ifs at hg hrun with h₁
      · obtain rfl := Option.some.inj hg
        rw [if_neg hcalled] at hcond
        exact h₁ ▸ hcond
      · exact h.twice j g hj hjt hg hrun hcalled
    · intro o hlast g hg
      obtain ⟨j, hj, hjt, hfunc, hcalled⟩ := h.done o hlast g hg
      refine ⟨j, hj, hjt, ?_, hcalled⟩
      dsimp only
      rw [update_func, if_neg, hfunc]
      rintro rfl
      rw [hnone] at hfunc
      cases hfunc

omit [DecidableEq F] in
/-- Slots are emptied but for the functions with `P`. -/
theorem Ok.drop (h : Ok s fs) {list : ℤ → RunList F} {live kept : List F} (P : F → Prop)
    (hfunc : ∀ (j : ℤ) (g : F), 0 ≤ j → j < daemonTop →
      ((list j).func = some g ↔ (s.list j).func = some g ∧ P g))
    (hrun : ∀ (j : ℤ) (g : F), 0 ≤ j → j < daemonTop → (list j).func = some g →
      (list j).running = (s.list j).running)
    (hnone : ∀ j : ℤ, 0 ≤ j → j < daemonTop → (list j).running = true → ∃ g, (list j).func = some g)
    (hlive : ∀ g, g ∈ live ↔ g ∈ s.live ∧ P g) (hkept : ∀ g ∈ kept, g ∈ s.kept ∧ P g) :
    Ok { s with list := list, live := live, kept := kept } fs where
  distinct i j f hi hit hj hjt hf hf' := h.distinct i j f hi hit hj hjt
    ((hfunc i f hi hit).mp hf).1 ((hfunc j f hj hjt).mp hf').1
  live f := by
    rw [hlive, h.live]
    constructor
    · rintro ⟨⟨i, hi, hit, hf⟩, hP⟩
      exact ⟨i, hi, hit, (hfunc i f hi hit).mpr ⟨hf, hP⟩⟩
    · rintro ⟨i, hi, hit, hf⟩
      obtain ⟨hf, hP⟩ := (hfunc i f hi hit).mp hf
      exact ⟨⟨i, hi, hit, hf⟩, hP⟩
  nested := h.nested
  low := h.low
  owner i hi hit hr := by
    obtain ⟨g, hg⟩ := hnone i hi hit hr
    obtain ⟨hslot, f, hf, hif⟩ := h.owner i hi hit ((hrun i g hi hit hg).symm.trans hr)
    obtain rfl := Option.some.inj (hif.symm.trans ((hfunc i g hi hit).mp hg).1)
    exact ⟨hslot, f, hf, hg⟩
  stack := h.stack
  once i f hi hit hf hr := h.once i f hi hit ((hfunc i f hi hit).mp hf).1
    ((hrun i f hi hit hf).symm.trans hr)
  twice i f hi hit hf hr := h.twice i f hi hit ((hfunc i f hi hit).mp hf).1
    ((hrun i f hi hit hf).symm.trans hr)
  done o ho f hf := by
    obtain ⟨hf, hP⟩ := hkept f hf
    obtain ⟨i, hi, hit, hif, hcalled⟩ := h.done o ho f hf
    exact ⟨i, hi, hit, (hfunc i f hi hit).mpr ⟨hif, hP⟩, hcalled⟩

/-- `daemon_del` of a function empties its slot. -/
theorem daemonDel_list (h : Ok s fs) (hi : 0 ≤ i) (hit : i < daemonTop) :
    (daemonDel s.list (some f)).1 i = if (s.list i).func = some f then {} else s.list i := by
  unfold daemonDel
  cases hf : find (fun i => some f = none ∨ some f = (s.list i).func) daemonTop 0 with
  | none =>
    have hno := find_eq_none.mp hf i hi (by omega)
    rw [if_neg]
    intro hif
    exact of_decide_eq_false hno (.inr hif.symm)
  | some k =>
    obtain ⟨hk, hkt, hkf, -⟩ := find_eq_some hf
    have hkf : (s.list k).func = some f := ((of_decide_eq_true hkf).resolve_left (by simp)).symm
    dsimp only
    rw [update_func]
    by_cases hik : i = k
    · rw [if_pos hik, if_pos (hik ▸ hkf)]
    · rw [if_neg hik, if_neg]
      exact fun hif => hik (h.distinct i k f hi hit hk (by omega) hif hkf)

/-- **`daemon_del`** takes one function out. -/
theorem del_ok (h : Ok s s.slots) : Ok (step s (.del f)) (step s (.del f)).slots := by
  refine h.drop (· ≠ f) (fun j g hj hjt => ?_) (fun j g hj hjt => ?_) (fun j hj hjt => ?_)
    (fun g => ?_) fun g hg => ?_
  · rw [daemonDel_list h hj hjt]
    split_ifs with hif
    · rw [hif]
      exact iff_of_false nofun fun hg => hg.2 (Option.some.inj hg.1).symm
    · refine (and_iff_left_of_imp ?_).symm
      rintro hg rfl
      exact hif hg
  · rw [daemonDel_list h hj hjt]
    split_ifs
    · nofun
    · exact fun _ => rfl
  · rw [daemonDel_list h hj hjt]
    split_ifs
    · nofun
    · intro hr
      obtain ⟨-, g, -, hg⟩ := h.owner j hj hjt hr
      exact ⟨g, hg⟩
  · rw [List.mem_filter, decide_eq_true_iff]
  · simpa using hg

/-- **`daemon_clear`** takes out the only function. -/
theorem clear_ok (h : Ok s s.slots) (ho : Orderly s .clear) :
    Ok (step s .clear) (step s .clear).slots := by
  have hfirst : find (fun i => (none : Option F) = none ∨ none = (s.list i).func) daemonTop 0 =
      some 0 := by
    refine find_eq_some_iff.mpr ⟨le_rfl, by decide, by simp, fun j _ _ => by omega⟩
  have hlist : daemonClear s.list = Function.update s.list 0 {} := by
    unfold daemonClear daemonDel
    rw [hfirst]
  have hnone : ∀ j : ℤ, 0 ≤ j → j < daemonTop → (daemonClear s.list j).func = none := by
    intro j hj hjt
    rw [hlist, update_func]
    split_ifs with hj0
    · rfl
    · exact ho j (by omega) hjt
  refine h.drop (fun _ => False) (fun j g hj hjt => ?_) (fun j g hj hjt hg => ?_)
    (fun j hj hjt hr => ?_) (fun g => ?_) fun g hg => ?_
  · rw [hnone j hj hjt]
    simp
  · rw [hnone j hj hjt] at hg
    cases hg
  · rw [hlist, update_func] at hr
    split_ifs at hr with hj0
    obtain ⟨-, g, -, hg⟩ := h.owner j hj hjt hr
    rw [ho j (by omega) hjt] at hg
    cases hg
  · simp
  · cases hg

/-! ### The loop -/

omit [DecidableEq F] in
/-- The next daemon, or none to the end of the list. -/
theorem next_cases (en : Entry F) : (∃ i f, en.next = some (i, f) ∧ en.i ≤ i ∧ i < daemonTop ∧
      (en.s.list i).func = some f ∧ (en.s.list i).running = false ∧
      ∀ j, en.i ≤ j → j < i → ∀ g, (en.s.list j).func = some g → (en.s.list j).running = true) ∨
    en.next = none ∧ ∀ j : ℤ, en.i ≤ j → j < daemonTop → ∀ g, (en.s.list j).func = some g →
      (en.s.list j).running = true := by
  have hpass : ∀ j, decide ((en.s.list j).func.isSome ∧ (en.s.list j).running = false) = false →
      ∀ g, (en.s.list j).func = some g → (en.s.list j).running = true := by
    intro j hj g hg
    by_contra hr
    exact of_decide_eq_false hj ⟨by rw [hg]; rfl, by simpa using hr⟩
  unfold Entry.next
  cases hf : find (fun i => (en.s.list i).func.isSome ∧ (en.s.list i).running = false)
      (daemonTop - en.i).toNat en.i with
  | none =>
    exact .inr ⟨rfl, fun j hj hjt => hpass j (find_eq_none.mp hf j hj (by omega))⟩
  | some i =>
    obtain ⟨hi, hit, hcall, hbefore⟩ := find_eq_some hf
    obtain ⟨hsome, hrun⟩ := of_decide_eq_true hcall
    obtain ⟨f, hif⟩ := Option.isSome_iff_exists.mp hsome
    refine .inl ⟨i, f, ?_, hi, by omega, hif, hrun, fun j hj hji => hpass j (hbefore j hj hji)⟩
    rw [Option.bind_some, hif]
    rfl

omit [DecidableEq F] in
/-- **In the loop the law holds.** -/
theorem loop_law (h : Ok en.s ((en.i - 1) :: en.s.slots)) (h0 : 0 ≤ en.i) :
    match en.next with
    | some (_, f) => f ∈ en.s.live ∧ f ∉ en.s.called ∧ ∀ fr ∈ en.s.frames, fr.func ≠ f
    | none => en.s.frames = [] → ∀ f ∈ en.s.kept, f ∈ en.s.called := by
  obtain ⟨i, f, hnext, hi, hit, hif, hrun, -⟩ | ⟨hnext, hrest⟩ := next_cases en <;> rw [hnext]
  · have hnew : f ∉ en.s.called := by
      intro hcalled
      have := h.once i f (by omega) hit hif hrun hcalled _ (List.mem_cons_self ..)
      omega
    refine ⟨(h.live f).mpr ⟨i, by omega, hit, hif⟩, hnew, fun fr hfr heq => ?_⟩
    exact hnew (heq ▸ h.stack fr hfr)
  · intro hout f hf
    have hlast : ((en.i - 1) :: en.s.slots).getLast? = some (en.i - 1) := by
      unfold State.slots
      rw [hout]
      rfl
    obtain ⟨i, hi, hit, hif, hcalled⟩ := h.done _ hlast f hf
    by_cases hpassed : i ≤ en.i - 1
    · exact hcalled hpassed
    · obtain ⟨-, g, hg, hig⟩ := h.owner i hi hit (hrest i (by omega) hit f hif)
      rwa [Option.some.inj (hif.symm.trans hig)]

omit [DecidableEq F] in
/-- The flag of a slot says nothing about its function. -/
theorem update_running (list : ℤ → RunList F) (i j : ℤ) (b : Bool) :
    ((Function.update list i { list i with running := b }) j).func = (list j).func := by
  rw [update_func]
  split_ifs with h
  · rw [h]
  · rfl

omit [DecidableEq F] in
/-- **The loop** calls the next daemon or ends. -/
theorem loop_ok (h : Ok en.s ((en.i - 1) :: en.s.slots)) (h0 : 0 ≤ en.i) :
    Ok en.loop en.loop.slots := by
  obtain ⟨i, f, hnext, hi, hit, hif, hrun, hbefore⟩ | ⟨hnext, hrest⟩ := next_cases en
  · obtain ⟨hlive, hnew, -⟩ : f ∈ en.s.live ∧ f ∉ en.s.called ∧ ∀ fr ∈ en.s.frames, fr.func ≠ f := by
      have hlaw := loop_law h h0
      rwa [hnext] at hlaw
    have hloop : en.loop = { en.s with
        list := Function.update en.s.list i { en.s.list i with running := true }
        frames := ⟨i, f, en.byTick, en.rc⟩ :: en.s.frames
        called := f :: en.s.called } := by
      unfold Entry.loop
      rw [hnext]
    rw [hloop]
    change Ok _ (i :: en.s.slots)
    -- the frames around are at slots that come later
    have hbehind := countP_cons_le (h.twice i f (by omega) hit hif hrun hnew) (by omega)
    refine ⟨?_, ?_, List.pairwise_cons.mpr ⟨hbehind, h.nested⟩, ?_, ?_, ?_, ?_, ?_, ?_⟩
    · intro j k g hj hjt hk hkt hg hg'
      dsimp only at hg hg'
      rw [update_running] at hg hg'
      exact h.distinct j k g hj hjt hk hkt hg hg'
    · intro g
      simp only [update_running]
      exact h.live g
    · exact List.forall_mem_cons.mpr ⟨h0.trans hi, h.low⟩
    · intro j hj hjt hr
      dsimp only at hr ⊢
      rw [update_running]
      by_cases hji : j = i
      · exact ⟨hji ▸ List.mem_cons_self .., f, List.mem_cons_self .., hji ▸ hif⟩
      · rw [update_func, if_neg hji] at hr
        obtain ⟨hslot, g, hg, hjg⟩ := h.owner j hj hjt hr
        exact ⟨List.mem_cons_of_mem _ hslot, g, List.mem_cons_of_mem _ hg, hjg⟩
    · intro fr hfr
      rcases List.mem_cons.mp hfr with rfl | hfr
      · exact List.mem_cons_self ..
      · exact List.mem_cons_of_mem _ (h.stack fr hfr)
    · intro j g hj hjt hg hr hcalled
      dsimp only at hg hr
      rw [update_running] at hg
      rw [update_func] at hr
      split_ifs at hr with hji
      rcases List.mem_cons.mp hcalled with rfl | hcalled
      · exact absurd (h.distinct j i g hj hjt (by omega) hit hg hif) hji
      · have honce := h.once j g hj hjt hg hr hcalled
        intro k hk
        rcases List.mem_cons.mp hk with rfl | hk
        · have := honce _ (List.mem_cons_self ..)
          omega
        · exact honce k (List.mem_cons_of_mem _ hk)
    · intro j g hj hjt hg hr hcalled
      dsimp only at hg hr
      rw [update_running] at hg
      rw [update_func] at hr
      split_ifs at hr with hji
      have htwice := h.twice j g hj hjt hg hr fun hc => hcalled (List.mem_cons_of_mem _ hc)
      rw [List.countP_cons] at htwice ⊢
      simp only [decide_eq_true_eq] at htwice ⊢
      split_ifs at htwice ⊢ <;> omega
    · intro o hlast g hg
      -- the outermost loop is this one or one around it
      cases hslots : en.s.slots with
      | nil =>
        rw [hslots] at hlast
        obtain rfl := Option.some.inj hlast
        have hlast' : ((en.i - 1) :: en.s.slots).getLast? = some (en.i - 1) := by
          rw [hslots]
          rfl
        obtain ⟨j, hj, hjt, hjg, hcalled⟩ := h.done _ hlast' g hg
        refine ⟨j, hj, hjt, (update_running ..).trans hjg, fun hji => ?_⟩
        by_cases hpassed : j ≤ en.i - 1
        · exact List.mem_cons_of_mem _ (hcalled hpassed)
        rcases eq_or_lt_of_le hji with rfl | hlt
        · exact Option.some.inj (hif.symm.trans hjg) ▸ List.mem_cons_self ..
        · obtain ⟨-, g', hg', hjg'⟩ := h.owner j hj hjt (hbefore j (by omega) hlt g hjg)
          rw [Option.some.inj (hjg.symm.trans hjg')]
          exact List.mem_cons_of_mem _ hg'
      | cons k rest =>
        have hlast' : ((en.i - 1) :: en.s.slots).getLast? = some o := by
          rw [hslots] at hlast ⊢
          exact hlast
        obtain ⟨j, hj, hjt, hjg, hcalled⟩ := h.done o hlast' g hg
        exact ⟨j, hj, hjt, (update_running ..).trans hjg,
          fun hjo => List.mem_cons_of_mem _ (hcalled hjo)⟩
  · have hloop : en.loop = { en.s with
        timer := setTimeout en.now 500
        tickActive := if en.byTick then false else en.s.tickActive } := by
      unfold Entry.loop
      rw [hnext]
    have hslots : en.loop.slots = en.s.slots := congrArg (List.map Frame.slot) (by rw [hloop])
    suffices hrest : Ok en.s en.s.slots by
      rw [hslots, hloop]
      exact hrest.congr rfl rfl rfl rfl rfl
    refine ⟨h.distinct, h.live, h.nested, h.low, h.owner, h.stack, ?_, ?_, ?_⟩
    · intro j g hj hjt hg hr hcalled k hk
      exact h.once j g hj hjt hg hr hcalled k (List.mem_cons_of_mem _ hk)
    · intro j g hj hjt hg hr hcalled
      exact (List.sublist_cons_self _ _).countP_le.trans (h.twice j g hj hjt hg hr hcalled)
    · intro o hlast g hg
      refine h.done o ?_ g hg
      rw [List.getLast?_cons, hlast]
      rfl

/-! ### Entries -/

omit [DecidableEq F] in
/-- A `daemon_run` starts. -/
theorem start_ok (h : Ok s s.slots) (hu : Undisturbed s) : Ok s.start (-1 :: s.start.slots) := by
  unfold State.start
  by_cases hout : s.frames = []
  · rw [if_pos hout]
    have hslots : s.slots = [] := by
      unfold State.slots
      rw [hout]
      rfl
    have hidle : ∀ i : ℤ, 0 ≤ i → i < daemonTop → (s.list i).running ≠ true := by
      intro i hi hit hr
      have := (h.owner i hi hit hr).1
      rw [hslots] at this
      cases this
    change Ok { s with called := [], kept := s.live } (-1 :: s.slots)
    rw [hslots]
    refine ⟨h.distinct, h.live, h.nested, h.low, fun i hi hit hr => absurd hr (hidle i hi hit),
      ?_, ?_, ?_, ?_⟩
    · intro fr hfr
      rw [show s.frames = [] from hout] at hfr
      cases hfr
    · exact fun _ _ _ _ _ _ => nofun
    · intro i f _ _ _ _ _
      rw [List.countP_cons, List.countP_nil]
      split_ifs <;> omega
    · intro o ho f hf
      have ho : (-1 : ℤ) = o := Option.some.inj ho
      obtain ⟨i, hi, hit, hif⟩ := (h.live f).mp hf
      exact ⟨i, hi, hit, hif, fun hneg => by omega⟩
  · rw [if_neg hout]
    have hu := hu.resolve_left hout
    refine ⟨h.distinct, h.live, h.nested, h.low, h.owner, h.stack, ?_, ?_, ?_⟩
    · exact fun i f hi hit hif hr hcalled => absurd hcalled (hu i f hi hit hif hr).1
    · intro i f hi hit hif hr _
      have hzero : s.slots.countP (· < i) = 0 := by
        refine List.countP_eq_zero.mpr fun k hk => ?_
        have := (hu i f hi hit hif hr).2 k hk
        simpa using this
      rw [List.countP_cons, hzero]
      split_ifs <;> omega
    · intro o ho f hf
      refine h.done o ?_ f hf
      cases hslots : s.slots with
      | nil => exact absurd (List.map_eq_nil_iff.mp hslots) hout
      | cons k rest =>
        rw [hslots] at ho
        exact ho

omit [DecidableEq F] in
/-- A daemon returns. -/
theorem ret_ok (h : Ok s s.slots) {fr : Frame F} {rest : List (Frame F)} (hfr : s.frames = fr :: rest) :
    Ok { s with list := Function.update s.list fr.slot { s.list fr.slot with running := false },
                frames := rest } (fr.slot :: rest.map Frame.slot) := by
  have hslots : s.slots = fr.slot :: rest.map Frame.slot := by
    unfold State.slots
    rw [hfr]
    rfl
  have hnested := h.nested
  rw [hslots] at hnested
  rw [← hslots]
  refine ⟨?_, ?_, (List.pairwise_cons.mp hnested).2, ?_, ?_, ?_, ?_, ?_, ?_⟩
  · intro j k g hj hjt hk hkt hg hg'
    dsimp only at hg hg'
    rw [update_running] at hg hg'
    exact h.distinct j k g hj hjt hk hkt hg hg'
  · intro g
    simp only [update_running]
    exact h.live g
  · exact fun k hk => h.low k (hslots ▸ List.mem_cons_of_mem _ hk)
  · intro j hj hjt hr
    dsimp only at hr ⊢
    rw [update_running]
    rw [update_func] at hr
    split_ifs at hr with hji
    obtain ⟨hslot, g, hg, hjg⟩ := h.owner j hj hjt hr
    rw [hslots] at hslot
    exact ⟨(List.mem_cons.mp hslot).resolve_left hji, g, hg, hjg⟩
  · intro fr' hfr'
    exact h.stack fr' (hfr ▸ List.mem_cons_of_mem _ hfr')
  · intro j g hj hjt hg hr hcalled
    dsimp only at hg hr
    rw [update_running] at hg
    rw [update_func] at hr
    split_ifs at hr with hji
    · -- its slot comes before those of the frames around
      intro k hk
      rw [hslots] at hk
      rcases List.mem_cons.mp hk with rfl | hk
      · exact hji.le
      · exact hji.le.trans ((List.pairwise_cons.mp hnested).1 k hk)
    · exact h.once j g hj hjt hg hr hcalled
  · intro j g hj hjt hg hr hcalled
    dsimp only at hg hr
    rw [update_running] at hg
    refine h.twice j g hj hjt hg ?_ hcalled
    by_contra hrun
    obtain ⟨-, g', hg', hjg'⟩ := h.owner j hj hjt (by simpa using hrun)
    exact hcalled (Option.some.inj (hg.symm.trans hjg') ▸ hg')
  · intro o ho g hg
    obtain ⟨j, hj, hjt, hjg, hcalled⟩ := h.done o ho g hg
    exact ⟨j, hj, hjt, (update_running ..).trans hjg, hcalled⟩

/-- **Every loop starts well.** -/
theorem entry_ok (h : Ok s s.slots) {ev : Event F} (ho : Orderly s ev) (he : entry s ev = some en) :
    Ok en.s ((en.i - 1) :: en.s.slots) ∧ 0 ≤ en.i := by
  cases ev with
  | add f => cases he
  | del f => cases he
  | clear => cases he
  | run now =>
    obtain ⟨hdue, heq⟩ := Option.ite_none_right_eq_some.mp he
    obtain rfl := Option.some.inj heq
    exact ⟨start_ok h (ho hdue), le_rfl⟩
  | tick now =>
    obtain ⟨⟨hidle, hdue⟩, heq⟩ := Option.ite_none_right_eq_some.mp he
    obtain rfl := Option.some.inj heq
    exact ⟨(start_ok h (ho hidle hdue)).congr rfl rfl rfl rfl rfl, le_rfl⟩
  | ret now =>
    unfold entry at he
    cases hfr : s.frames with
    | nil =>
      rw [hfr] at he
      cases he
    | cons fr rest =>
      rw [hfr] at he
      obtain rfl := Option.some.inj he
      have hret := ret_ok h hfr
      refine ⟨?_, ?_⟩
      · change Ok _ ((fr.slot + 1 - 1) :: rest.map Frame.slot)
        rw [add_sub_cancel_right]
        exact hret
      · have := h.low fr.slot (List.mem_map_of_mem (hfr ▸ List.mem_cons_self ..))
        dsimp only
        omega

/-! ## Runs of the machine -/

/-- **A step** that is orderly keeps the invariant and obeys the law. -/
theorem step_ok (h : Ok s s.slots) (ev : Event F) (ho : Orderly s ev) :
    Ok (step s ev) (step s ev).slots ∧ DaemonLaw s ev := by
  have hlaw : DaemonLaw s ev := by
    intro en he
    obtain ⟨h', h0⟩ := entry_ok h ho he
    exact loop_law h' h0
  have hloop : ∀ s', (match entry s ev with | none => s | some en => en.loop) = s' →
      Ok s' s'.slots := by
    rintro s' rfl
    cases he : entry s ev with
    | none => exact h
    | some en =>
      obtain ⟨h', h0⟩ := entry_ok h ho he
      exact loop_ok h' h0
  refine ⟨?_, hlaw⟩
  cases ev with
  | add f => exact add_ok h ho
  | del f => exact del_ok h
  | clear => exact clear_ok h ho
  | run now => exact hloop _ rfl
  | tick now => exact hloop _ rfl
  | ret now => exact hloop _ rfl

omit [DecidableEq F] in
theorem initial_ok : Ok ({} : State F) ({} : State F).slots where
  distinct _ _ _ _ _ _ _ h := by cases h
  live f := iff_of_false nofun fun ⟨_, _, _, h⟩ => by cases h
  nested := List.Pairwise.nil
  low _ h := by cases h
  owner _ _ _ h := by cases h
  stack _ h := by cases h
  once _ _ _ _ h := by cases h
  twice _ _ _ _ h := by cases h
  done _ h := by cases h

/-- **The daemon list**: in every run of orderly steps, each daemon that is called was added and not
deleted since, is called once in an outermost pass and not while it runs, and a pass leaves out none. -/
theorem daemons_called (evs : List (Event F)) (ho : Always step Orderly {} evs) :
    Always step DaemonLaw ({} : State F) evs :=
  always_of_invariant (I := fun s => Ok s s.slots) (fun _ ev h hq => step_ok h ev hq) evs initial_ok ho

/-- Two daemons; the first one deletes itself. -/
def oneStays : List (Event ℕ) := [.add 0, .add 1, .tick 1, .del 0, .ret 2, .ret 3]

theorem daemons_called_oneStays : Always step DaemonLaw ({} : State ℕ) oneStays :=
  daemons_called oneStays (by
    refine ⟨.inr fun i _ => ?_, .inr fun i _ => ?_, fun _ _ => .inl rfl, trivial, trivial, trivial,
      trivial⟩ <;> exact Nat.zero_le 1)

/-- Two daemons, and the list is cleared. -/
def cleared : List (Event ℕ) := [.add 0, .add 1, .clear, .tick 1]

theorem daemon_after_clear : ¬ Always step DaemonLaw ({} : State ℕ) cleared := by
  rintro ⟨-, -, -, h, -⟩
  -- the second daemon is still there and is called
  have hlive := h.live rfl (i := 1) (f := 1) (by decide)
  cases hlive

end Watt32.Daemons
