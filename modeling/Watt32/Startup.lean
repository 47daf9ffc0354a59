import Mathlib.Data.List.Perm.Basic
import Watt32.Lib.Qsort
import Watt32.Lib.Run
import Watt32.Tcp.Socket

/-!
# Start-up and run-down functions

`startup_add`, `rundown_add` and `rundown_run` of `run.c`. Functions are the elements of a type `F`; a
registered function does not register others when it is called.

* `add`: `startup_add` and `rundown_add` on their list and counter.
* `rundownRun`: the functions that `rundown_run` calls, in that order.
* `register`: what a registration is for, on the entries in any order.
* `Scanned`: the loop over the slots below the counter sees what it should, and slot number `num` is free.
* **`registrations_kept`**: registrations do what they are for exactly when all are `Scanned`, and then
  `rundown_run` calls every registered function once, by increasing order.
-/

namespace Watt32.Startup

open Machine

variable {F : Type}

section Model

variable [DecidableEq F]

/-! ## The source -/

/-- `struct run_list` without `running`. `order` is the bit pattern of an `int`. -/
structure RunList (F : Type) where
  func : Option F := none
  name : String := ""
  order : Dword := 0
  file : String := ""
  line : Dword := 0
  deriving DecidableEq

/-- The arguments of a registration. -/
structure Call (F : Type) where
  func : F
  name : String
  order : Dword
  file : String
  line : Dword

/-- What a registration writes to a slot. -/
def Call.entry (c : Call F) : RunList F := ⟨some c.func, c.name, c.order, c.file, c.line⟩

/-- `list_compare`. -/
def listCompare (a b : RunList F) : ℤ := (a.order - b.order).toInt

/-- A list and its counter. -/
structure Registry (F : Type) where
  list : List (RunList F)
  numInserts : ℕ

/-- The start. -/
def Registry.empty : Registry F := ⟨List.replicate 40 {}, 0⟩

/-- What the loop over the slots finds. -/
inductive Scan
  | modify (i : ℕ)
  | taken
  | free
  deriving DecidableEq

/-- The loop over the slots from number `i` on. -/
def scan (c : Call F) : (i : ℕ) → List (RunList F) → Scan
  | _, [] => .free
  | i, r :: rest =>
    if r.func = none then scan c (i + 1) rest
    else if r.func = some c.func then .modify i
    else if r.order = c.order then .taken
    else scan c (i + 1) rest

/-- The sort of the C library. -/
abbrev QsortFn (F : Type) := (RunList F → RunList F → ℤ) → List (RunList F) → List (RunList F)

/-- `startup_add` and `rundown_add` on their list. -/
def add (qsort : QsortFn F) (r : Registry F) (c : Call F) : Registry F × ℤ :=
  match scan c 0 (r.list.take r.numInserts) with
  | .taken => (r, -1)
  | .modify i => (⟨qsort listCompare (r.list.set i c.entry), r.numInserts⟩, r.numInserts)
  | .free => (⟨qsort listCompare (r.list.set r.numInserts c.entry), r.numInserts + 1⟩, r.numInserts + 1)

/-- `start_list` and `exit_list`. -/
structure Lists (F : Type) where
  start : Registry F := .empty
  exit : Registry F := .empty

/-- `startup_add`. -/
def startupAdd (qsort : QsortFn F) (s : Lists F) (c : Call F) : Lists F × ℤ :=
  ({ s with start := (add qsort s.start c).1 }, (add qsort s.start c).2)

/-- `rundown_add`. -/
def rundownAdd (qsort : QsortFn F) (s : Lists F) (c : Call F) : Lists F × ℤ :=
  ({ s with exit := (add qsort s.exit c).1 }, (add qsort s.exit c).2)

/-- `rundown_run`: the functions called, and the lists after it. -/
def rundownRun (s : Lists F) : List F × Lists F :=
  (s.exit.list.filterMap RunList.func,
    { s with exit := { s.exit with list := s.exit.list.map fun e => { e with func := none } } })

/-- A registration. -/
inductive Op (F : Type)
  | startup (c : Call F)
  | rundown (c : Call F)

/-- Its arguments. -/
def Op.call : Op F → Call F
  | startup c => c
  | rundown c => c

/-- The list it is for. -/
def Op.target : Op F → Lists F → Registry F
  | startup _, s => s.start
  | rundown _, s => s.exit

/-- One registration. -/
def step (qsort : QsortFn F) (s : Lists F) : Op F → Lists F
  | .startup c => (startupAdd qsort s c).1
  | .rundown c => (rundownAdd qsort s c).1

/-! ## What a registration is for -/

/-- The entries with a function. -/
def live (l : List (RunList F)) : List (RunList F) := l.filter fun e => e.func.isSome

/-- The function has an entry. -/
def Listed (t : List (RunList F)) (c : Call F) : Prop := ∃ e ∈ t, e.func = some c.func

/-- The order is that of an entry. -/
def Ordered (t : List (RunList F)) (c : Call F) : Prop := ∃ e ∈ t, e.order = c.order

instance (t : List (RunList F)) (c : Call F) : Decidable (Listed t c) :=
  inferInstanceAs (Decidable (∃ e ∈ t, e.func = some c.func))

instance (t : List (RunList F)) (c : Call F) : Decidable (Ordered t c) :=
  inferInstanceAs (Decidable (∃ e ∈ t, e.order = c.order))

/-- The entry of the same function, changed. -/
def replace (c : Call F) (e : RunList F) : RunList F := if e.func = some c.func then c.entry else e

/-- A registration among the entries `t`: the same function gets a new entry, another function with an order
that is present is refused, any other function is added. -/
def register (t : List (RunList F)) (c : Call F) : List (RunList F) :=
  if Listed t c then t.map (replace c) else if Ordered t c then t else c.entry :: t

/-- Another function with an order that is present. -/
def Refused (t : List (RunList F)) (c : Call F) : Prop := ¬ Listed t c ∧ Ordered t c

/-- A registration does what it is for: -1 and no change exactly when it is refused. -/
structure Kept (qsort : QsortFn F) (r : Registry F) (c : Call F) : Prop where
  entries : (live (add qsort r c).1.list).Perm (register (live r.list) c)
  result : (add qsort r c).2 = -1 ↔ Refused (live r.list) c
  same : Refused (live r.list) c → (add qsort r c).1 = r

/-- Distinct functions have distinct orders: a function never gets the order of another one. -/
def Apart (r : Registry F) (c : Call F) : Prop :=
  Listed (live r.list) c → ∀ e ∈ live r.list, e.order = c.order → e.func = some c.func

instance (r : Registry F) (c : Call F) : Decidable (Apart r c) :=
  inferInstanceAs (Decidable (Listed (live r.list) c → _))

/-- The function or the order, when it is present, is in a slot below the counter (for the function, the slot
at the counter will do); else the slot at the counter is free. -/
def Scanned (r : Registry F) (c : Call F) : Prop :=
  if Listed (live r.list) c then ∃ e ∈ r.list.take (r.numInserts + 1), e.func = some c.func
  else if Ordered (live r.list) c then ∃ e ∈ live (r.list.take r.numInserts), e.order = c.order
  else r.list[r.numInserts]?.map RunList.func = some none

instance (r : Registry F) (c : Call F) : Decidable (Scanned r c) := by
  unfold Scanned
  infer_instance

end Model

/-! ## The loop -/

section Loop

variable [DecidableEq F] {c : Call F} {l : List (RunList F)} {i k : ℕ} {e : RunList F}

theorem scan_modify (h : scan c i l = .modify k) : ∃ j, k = i + j ∧ ∃ e, l[j]? = some e ∧ e.func = some c.func := by
  induction l generalizing i with
  | nil => cases h
  | cons r rest ih =>
    unfold scan at h
    split_ifs at h with h₁ h₂ h₃
    · obtain ⟨j, hk, hj⟩ := ih h
      exact ⟨j + 1, by omega, hj⟩
    · cases h
      exact ⟨0, rfl, r, rfl, h₂⟩
    · obtain ⟨j, hk, hj⟩ := ih h
      exact ⟨j + 1, by omega, hj⟩

theorem scan_taken (h : scan c i l = .taken) : ∃ e ∈ live l, e.func ≠ some c.func ∧ e.order = c.order := by
  induction l generalizing i with
  | nil => cases h
  | cons r rest ih =>
    have hmem : ∀ e ∈ live rest, e ∈ live (r :: rest) := fun e he =>
      ((List.sublist_cons_self r rest).filter _).mem he
    unfold scan at h
    split_ifs at h with h₁ h₂ h₃
    · obtain ⟨e, he, hne⟩ := ih h
      exact ⟨e, hmem e he, hne⟩
    · refine ⟨r, ?_, h₂, h₃⟩
      simp [live, Option.isSome_iff_ne_none, h₁]
    · obtain ⟨e, he, hne⟩ := ih h
      exact ⟨e, hmem e he, hne⟩

theorem scan_free (h : scan c i l = .free) : ∀ e ∈ live l, e.func ≠ some c.func ∧ e.order ≠ c.order := by
  induction l generalizing i with
  | nil => simp [live]
  | cons r rest ih =>
    unfold scan at h
    split_ifs at h with h₁ h₂ h₃
    · intro e he
      rw [live, List.filter_cons_of_neg (by simp [h₁])] at he
      exact ih h e he
    · intro e he
      rw [live, List.filter_cons_of_pos (by simp [Option.isSome_iff_ne_none, h₁])] at he
      rcases List.mem_cons.mp he with rfl | he
      · exact ⟨h₂, h₃⟩
      · exact ih h e he

end Loop

/-! ## The entries of a list -/

section Entries

variable {c : Call F} {l l' : List (RunList F)} {i j n : ℕ} {e e' : RunList F}

theorem mem_live : e ∈ live l ↔ e ∈ l ∧ e.func ≠ none := by
  rw [live, List.mem_filter, Option.isSome_iff_ne_none]

theorem mem_live_of_func {f : F} (he : e ∈ l) (hf : e.func = some f) : e ∈ live l :=
  mem_live.mpr ⟨he, by simp [hf]⟩

theorem listed_live : Listed (live l) c ↔ ∃ e ∈ l, e.func = some c.func := by
  constructor
  · rintro ⟨e, he, hf⟩
    exact ⟨e, (mem_live.mp he).1, hf⟩
  · rintro ⟨e, he, hf⟩
    exact ⟨e, mem_live_of_func he hf, hf⟩

/-- No function has two slots. -/
def Unique (l : List (RunList F)) : Prop := (l.filterMap RunList.func).Nodup

theorem Unique.perm (h : Unique l) (hp : l.Perm l') : Unique l' := (hp.filterMap _).nodup_iff.mp h

theorem filterMap_live : (live l).filterMap RunList.func = l.filterMap RunList.func := by
  rw [live, List.filterMap_filter]
  apply List.filterMap_congr
  intro e _
  cases h : e.func <;> simp

theorem unique_live : Unique (live l) ↔ Unique l := by
  unfold Unique
  rw [filterMap_live]

theorem Unique.index {f : F} (h : Unique l) (hi : l[i]? = some e) (hf : e.func = some f) (hj : l[j]? = some e')
    (hf' : e'.func = some f) : i = j := by
  obtain ⟨hil, rfl⟩ := List.getElem?_eq_some_iff.mp hi
  obtain ⟨hjl, rfl⟩ := List.getElem?_eq_some_iff.mp hj
  have hpair := List.pairwise_iff_getElem.mp (List.pairwise_filterMap.mp h)
  rcases lt_trichotomy i j with hlt | heq | hlt
  · exact absurd rfl (hpair i j hil hjl hlt f hf f hf')
  · exact heq
  · exact absurd rfl (hpair j i hjl hil hlt f hf' f hf)

theorem split_at (hn : l[n]? = some e) : l = l.take n ++ e :: l.drop (n + 1) := by
  obtain ⟨hlt, rfl⟩ := List.getElem?_eq_some_iff.mp hn
  rw [← List.drop_eq_getElem_cons hlt, List.take_append_drop]

theorem set_at (hn : l[n]? = some e) : l.set n c.entry = l.take n ++ c.entry :: l.drop (n + 1) :=
  List.set_eq_take_append_cons_drop.trans (if_pos (List.getElem?_eq_some_iff.mp hn).1)

theorem live_set (hn : l[n]? = some e) :
    live (l.set n c.entry) = live (l.take n) ++ c.entry :: live (l.drop (n + 1)) := by
  rw [set_at hn, live, List.filter_append, List.filter_cons_of_pos (by simp [Call.entry])]
  rfl

/-- A free slot is filled. -/
theorem live_set_free (hn : l[n]? = some e) (he : e.func = none) :
    (live (l.set n c.entry)).Perm (c.entry :: live l) := by
  have hl : live l = live (l.take n) ++ live (l.drop (n + 1)) := by
    conv_lhs => rw [split_at hn]
    rw [live, List.filter_append, List.filter_cons_of_neg (by simp [he])]
    rfl
  rw [live_set hn, hl]
  exact List.perm_middle

/-- An entry is overwritten. -/
theorem length_live_set (hn : l[n]? = some e) (he : e.func ≠ none) :
    (live (l.set n c.entry)).length = (live l).length := by
  have hl : live l = live (l.take n) ++ e :: live (l.drop (n + 1)) := by
    conv_lhs => rw [split_at hn]
    rw [live, List.filter_append, List.filter_cons_of_pos (by simp [Option.isSome_iff_ne_none, he])]
    rfl
  rw [live_set hn, hl, List.length_append, List.length_append, List.length_cons, List.length_cons]

variable [DecidableEq F]

/-- The slot of the function is the only one that a registration changes. -/
theorem set_eq_map (h : Unique l) (hi : l[i]? = some e) (hf : e.func = some c.func) :
    l.set i c.entry = l.map (replace c) := by
  apply List.ext_getElem?
  intro j
  rw [List.getElem?_map]
  by_cases hij : i = j
  · subst hij
    rw [List.getElem?_set_self (List.getElem?_eq_some_iff.mp hi).1, hi, Option.map_some, replace, if_pos hf]
  · rw [List.getElem?_set_ne hij]
    cases hj : l[j]? with
    | none => rfl
    | some e' =>
      have hne : e'.func ≠ some c.func := fun hf' => hij (h.index hi hf hj hf')
      rw [Option.map_some, replace, if_neg hne]

theorem live_map_replace : live (l.map (replace c)) = (live l).map (replace c) := by
  rw [live, List.filter_map]
  congr 1
  apply List.filter_congr
  intro e _
  unfold replace
  dsimp only [Function.comp_apply]
  split_ifs with hf
  · simp [Call.entry, hf]
  · rfl

end Entries

/-! ## One registration -/

section Add

variable [DecidableEq F] {q : QsortFn F} {r : Registry F} {c : Call F}

theorem replace_func (e : RunList F) : (replace c e).func = e.func := by
  unfold replace
  split_ifs with hf
  · exact hf.symm
  · rfl

theorem filterMap_map_replace (t : List (RunList F)) :
    (t.map (replace c)).filterMap RunList.func = t.filterMap RunList.func := by
  rw [List.filterMap_map]
  exact List.filterMap_congr fun e _ => replace_func e

/-- A function in the slot `i` gets its new entry there. -/
theorem live_sorted_modify (hq : Qsort.Contract q) (hu : Unique r.list) {i : ℕ} {e : RunList F}
    (hi : r.list[i]? = some e) (hf : e.func = some c.func) :
    (live (q listCompare (r.list.set i c.entry))).Perm (register (live r.list) c) := by
  have hlisted : Listed (live r.list) c := listed_live.mpr ⟨e, List.mem_of_getElem? hi, hf⟩
  rw [register, if_pos hlisted, ← live_map_replace, ← set_eq_map hu hi hf]
  exact (hq.perm ..).filter _

theorem add_modify {i : ℕ} (h : scan c 0 (r.list.take r.numInserts) = .modify i) : add q r c =
    (⟨q listCompare (r.list.set i c.entry), r.numInserts⟩, (r.numInserts : ℤ)) := by
  unfold add
  rw [h]

theorem add_taken (h : scan c 0 (r.list.take r.numInserts) = .taken) : add q r c = (r, -1) := by
  unfold add
  rw [h]

theorem add_free (h : scan c 0 (r.list.take r.numInserts) = .free) : add q r c =
    (⟨q listCompare (r.list.set r.numInserts c.entry), r.numInserts + 1⟩, (r.numInserts : ℤ) + 1) := by
  unfold add
  rw [h]

/-- The loop finds the function. -/
theorem kept_of_modify (hq : Qsort.Contract q) (hu : Unique r.list) {i : ℕ}
    (h : scan c 0 (r.list.take r.numInserts) = .modify i) : Kept q r c ∧ Scanned r c := by
  obtain ⟨j, rfl, e, hj, hf⟩ := scan_modify h
  have hmem := List.mem_of_getElem? hj
  rw [List.getElem?_take] at hj
  split_ifs at hj with hlt
  have hlisted : Listed (live r.list) c := listed_live.mpr ⟨e, List.mem_of_getElem? hj, hf⟩
  refine ⟨⟨?_, ?_, ?_⟩, ?_⟩
  · rw [add_modify h, Nat.zero_add]
    exact live_sorted_modify hq hu hj hf
  · rw [add_modify h]
    exact iff_of_false (by simp) fun hr => hr.1 hlisted
  · exact fun hr => absurd hlisted hr.1
  · rw [Scanned, if_pos hlisted]
    exact ⟨e, (List.take_sublist_take_left (Nat.le_succ _)).mem hmem, hf⟩

/-- The loop finds the order. -/
theorem kept_of_taken (hap : Apart r c) (h : scan c 0 (r.list.take r.numInserts) = .taken) :
    Kept q r c ∧ Scanned r c := by
  obtain ⟨e, he, hne, hord⟩ := scan_taken h
  have hlive : e ∈ live r.list := ((List.take_sublist _ _).filter _).mem he
  have hnot : ¬ Listed (live r.list) c := fun hl => hne (hap hl e hlive hord)
  have hordered : Ordered (live r.list) c := ⟨e, hlive, hord⟩
  refine ⟨⟨?_, ?_, ?_⟩, ?_⟩
  · rw [add_taken h, register, if_neg hnot, if_pos hordered]
  · rw [add_taken h]
    exact iff_of_true rfl ⟨hnot, hordered⟩
  · intro _
    rw [add_taken h]
  · rw [Scanned, if_neg hnot, if_pos hordered]
    exact ⟨e, he, hord⟩

/-- The loop finds neither: what counts is the slot at the counter. -/
theorem kept_of_free (hq : Qsort.Contract q) (hu : Unique r.list) (hlt : r.numInserts < r.list.length)
    (h : scan c 0 (r.list.take r.numInserts) = .free) : Kept q r c ↔ Scanned r c := by
  have hnone := scan_free h
  obtain ⟨e, hn⟩ : ∃ e, r.list[r.numInserts]? = some e := ⟨_, List.getElem?_eq_getElem hlt⟩
  have hperm : (live (add q r c).1.list).Perm (live (r.list.set r.numInserts c.entry)) := by
    rw [add_free h]
    exact (hq.perm ..).filter _
  have hres : (add q r c).2 ≠ -1 := by
    rw [add_free h]
    simp only
    omega
  by_cases hlisted : Listed (live r.list) c
  · rw [Scanned, if_pos hlisted]
    constructor
    · intro hk
      -- elsewhere the function would have two slots
      obtain ⟨e', he', hf'⟩ := listed_live.mp hlisted
      obtain ⟨j, hj⟩ := List.mem_iff_getElem?.mp he'
      by_cases hjn : j = r.numInserts
      · refine ⟨e', ?_, hf'⟩
        rw [List.take_add_one, ← hjn, hj]
        exact List.mem_append_right _ (List.mem_singleton_self _)
      · have hreg : Unique (register (live r.list) c) := by
          rw [register, if_pos hlisted]
          unfold Unique
          rw [filterMap_map_replace]
          exact unique_live.mpr hu
        have hset : Unique (r.list.set r.numInserts c.entry) := by
          rw [← unique_live]
          exact hreg.perm (hk.entries.symm.trans hperm)
        refine absurd (hset.index (List.getElem?_set_self hlt) rfl ?_ hf') (Ne.symm hjn)
        rw [List.getElem?_set_ne (Ne.symm hjn)]
        exact hj
    · rintro ⟨e', he', hf'⟩
      have hat : r.list[r.numInserts]? = some e' := by
        rw [List.take_add_one, hn] at he'
        rcases List.mem_append.mp he' with hbelow | hat
        · exact absurd hf' (hnone e' (mem_live_of_func hbelow hf')).1
        · rw [hn, List.mem_singleton.mp hat]
      refine ⟨?_, ?_, ?_⟩
      · rw [add_free h]
        exact live_sorted_modify hq hu hat hf'
      · exact iff_of_false hres fun hr => hr.1 hlisted
      · exact fun hr => absurd hlisted hr.1
  · rw [Scanned, if_neg hlisted]
    by_cases hord : Ordered (live r.list) c
    · rw [if_pos hord]
      refine iff_of_false ?_ ?_
      · exact fun hk => hres (hk.result.mpr ⟨hlisted, hord⟩)
      · rintro ⟨e', he', heq⟩
        exact (hnone e' he').2 heq
    · rw [if_neg hord, hn, Option.map_some, Option.some_inj]
      constructor
      · intro hk
        by_contra hfull
        have hlen := hk.entries.length_eq
        rw [register, if_neg hlisted, if_neg hord, hperm.length_eq, length_live_set hn hfull,
          List.length_cons] at hlen
        omega
      · intro hfree
        refine ⟨?_, ?_, ?_⟩
        · rw [register, if_neg hlisted, if_neg hord]
          exact hperm.trans (live_set_free hn hfree)
        · exact iff_of_false hres fun hr => hord hr.2
        · exact fun hr => absurd hr.2 hord

/-- **One registration** does what it is for exactly when it is scanned. -/
theorem kept_iff_scanned (hq : Qsort.Contract q) (hu : Unique r.list) (hap : Apart r c)
    (hlt : r.numInserts < r.list.length) : Kept q r c ↔ Scanned r c := by
  cases h : scan c 0 (r.list.take r.numInserts) with
  | modify i => exact iff_of_true (kept_of_modify hq hu h).1 (kept_of_modify hq hu h).2
  | taken =>
    have hboth : Kept q r c ∧ Scanned r c := kept_of_taken hap h
    exact iff_of_true hboth.1 hboth.2
  | free => exact kept_of_free hq hu hlt h

end Add

/-! ## What every registration keeps -/

/-- The orders of the entries are distinct. -/
def OrderOnce (t : List (RunList F)) : Prop := (t.map RunList.order).Nodup

/-- A list in good state. -/
structure Sound (r : Registry F) : Prop where
  length : r.list.length = 40
  unique : Unique r.list
  orders : OrderOnce (live r.list)
  unused : ∀ e ∈ r.list, e.func = none → e.order = 0
  sorted : Qsort.Consistent listCompare r.list → r.list.Pairwise fun a b => listCompare a b ≤ 0

section Keep

variable {q : QsortFn F} {r : Registry F} {c : Call F} {t t' : List (RunList F)}

/-- What every list that the sort leaves has, whatever it was given. -/
theorem sorted_qsort (hq : Qsort.Contract q) (l : List (RunList F)) :
    Qsort.Consistent listCompare (q listCompare l) →
      (q listCompare l).Pairwise fun a b => listCompare a b ≤ 0 := by
  intro h
  apply hq.sorted
  exact h.mono fun a ha => (hq.perm ..).mem_iff.mpr ha

theorem unused_set {l : List (RunList F)} {i : ℕ} (h : ∀ e ∈ l, e.func = none → e.order = 0) :
    ∀ e ∈ l.set i c.entry, e.func = none → e.order = 0 := by
  intro e he hnone
  rcases List.mem_or_eq_of_mem_set he with he | rfl
  · exact h e he hnone
  · cases hnone

theorem live_empty : live (Registry.empty : Registry F).list = [] :=
  List.filter_eq_nil_iff.mpr fun e he => by simp [List.eq_of_mem_replicate he]

theorem sound_empty : Sound (Registry.empty : Registry F) where
  length := rfl
  unique := by
    have : (List.replicate 40 ({} : RunList F)).filterMap RunList.func = [] :=
      List.filterMap_eq_nil_iff.mpr fun e he => by rw [List.eq_of_mem_replicate he]
    unfold Unique Registry.empty
    rw [this]
    exact List.nodup_nil
  orders := by
    unfold OrderOnce
    rw [live_empty]
    exact List.nodup_nil
  unused e he _ := by rw [List.eq_of_mem_replicate he]
  sorted _ := by
    apply List.pairwise_of_forall_mem_list
    intro a ha b hb
    rw [List.eq_of_mem_replicate ha, List.eq_of_mem_replicate hb]
    exact le_of_eq (by simp [listCompare])

variable [DecidableEq F]

/-- Orders stay distinct when the function gets no order of another one. -/
theorem OrderOnce.register (h : OrderOnce t) (hu : Unique t)
    (hap : Listed t c → ∀ e ∈ t, e.order = c.order → e.func = some c.func) :
    OrderOnce (register t c) := by
  unfold Startup.register
  split_ifs with hlisted hord
  · unfold OrderOnce at h ⊢
    rw [List.map_map, List.nodup_iff_pairwise_ne, List.pairwise_map]
    rw [List.nodup_iff_pairwise_ne, List.pairwise_map] at h
    apply (h.and (List.pairwise_filterMap.mp hu)).imp_of_mem
    rintro a b ha hb ⟨hne, hfunc⟩
    dsimp only [Function.comp_apply]
    unfold replace
    split_ifs with hfa hfb hfb
    · exact absurd rfl (hfunc _ hfa _ hfb)
    · exact fun heq => hfb (hap hlisted b hb heq.symm)
    · exact fun heq => hfa (hap hlisted a ha heq)
    · exact hne
  · exact h
  · refine List.nodup_cons.mpr ⟨?_, h⟩
    intro hmem
    obtain ⟨e, he, heq⟩ := List.mem_map.mp hmem
    exact hord ⟨e, he, heq⟩

theorem Unique.register (hu : Unique t) : Unique (register t c) := by
  unfold Startup.register
  split_ifs with hlisted hord
  · unfold Unique
    rw [filterMap_map_replace]
    exact hu
  · exact hu
  · have hnot : c.func ∉ t.filterMap RunList.func := by
      rw [List.mem_filterMap]
      exact hlisted
    exact List.nodup_cons.mpr ⟨hnot, hu⟩

/-- A registration that does what it is for keeps the list in good state. -/
theorem Sound.add (hq : Qsort.Contract q) (h : Sound r) (hap : Apart r c) (hk : Kept q r c) :
    Sound (add q r c).1 where
  length := by
    cases hs : scan c 0 (r.list.take r.numInserts) with
    | modify i => simp only [add_modify hs, (hq.perm ..).length_eq, List.length_set, h.length]
    | taken => simp only [add_taken hs, h.length]
    | free => simp only [add_free hs, (hq.perm ..).length_eq, List.length_set, h.length]
  unique := by
    rw [← unique_live]
    exact (unique_live.mpr h.unique).register.perm hk.entries.symm
  orders := (hk.entries.map _).nodup_iff.mpr (h.orders.register (unique_live.mpr h.unique) hap)
  unused := by
    cases hs : scan c 0 (r.list.take r.numInserts) with
    | modify i =>
      rw [add_modify hs]
      exact fun e he => unused_set h.unused e ((hq.perm ..).mem_iff.mp he)
    | taken =>
      rw [add_taken hs]
      exact h.unused
    | free =>
      rw [add_free hs]
      exact fun e he => unused_set h.unused e ((hq.perm ..).mem_iff.mp he)
  sorted := by
    cases hs : scan c 0 (r.list.take r.numInserts) with
    | modify i =>
      rw [add_modify hs]
      exact sorted_qsort hq _
    | taken =>
      rw [add_taken hs]
      exact h.sorted
    | free =>
      rw [add_free hs]
      exact sorted_qsort hq _

/-- `register` does not see how the entries are arranged. -/
theorem register_perm (h : t.Perm t') : (register t c).Perm (register t' c) := by
  have hl : Listed t c ↔ Listed t' c := by simp only [Listed, h.mem_iff]
  have ho : Ordered t c ↔ Ordered t' c := by simp only [Ordered, h.mem_iff]
  unfold register
  simp only [hl, ho]
  split_ifs
  · exact h.map _
  · exact h
  · exact h.cons _

end Keep

/-! ## Running down -/

/-- No difference of two orders, that of an unused slot among them, leaves the range of `int`. -/
def Spread (t : List (RunList F)) : Prop :=
  ∀ a ∈ ({} : RunList F) :: t, ∀ b ∈ ({} : RunList F) :: t, a.order.toInt - b.order.toInt < 2 ^ 31

instance (t : List (RunList F)) : Decidable (Spread t) := by
  unfold Spread
  infer_instance

/-- Every function of `t` once, by increasing order. -/
def InOrder (calls : List F) (t : List (RunList F)) : Prop :=
  ∃ es : List (RunList F), es.Perm t ∧ (es.Pairwise fun a b => a.order.toInt < b.order.toInt) ∧
    calls.map some = es.map RunList.func

section RunDown

variable {a b : RunList F} {r : Registry F} {t : List (RunList F)}

theorem listCompare_toInt (h : a.order.toInt - b.order.toInt < 2 ^ 31)
    (h' : b.order.toInt - a.order.toInt < 2 ^ 31) : listCompare a b = a.order.toInt - b.order.toInt := by
  unfold listCompare
  rw [BitVec.toInt_sub]
  exact Int.bmod_eq_of_le (by norm_num; omega) (by norm_num; omega)

theorem order_mem (h : Sound r) (hp : (live r.list).Perm t) (ha : a ∈ r.list) :
    ∃ e ∈ ({} : RunList F) :: t, e.order = a.order := by
  cases hf : a.func with
  | none => exact ⟨{}, List.mem_cons_self, (h.unused a ha hf).symm⟩
  | some f => exact ⟨a, List.mem_cons_of_mem _ (hp.mem_iff.mp (mem_live_of_func ha hf)), rfl⟩

theorem map_filterMap_func (l : List (RunList F)) :
    (l.filterMap RunList.func).map some = (live l).map RunList.func := by
  induction l with
  | nil => rfl
  | cons e l ih =>
    cases hf : e.func with
    | none => rw [List.filterMap_cons_none hf, ih, live, live, List.filter_cons_of_neg (by simp [hf])]
    | some f =>
      rw [List.filterMap_cons_some hf, List.map_cons, ih, live, live,
        List.filter_cons_of_pos (by simp [hf]), List.map_cons, hf]

/-- **Running down** a list in good state. -/
theorem inOrder_of_sound (h : Sound r) (hp : (live r.list).Perm t) (hs : Spread t) :
    InOrder (r.list.filterMap RunList.func) t := by
  have hcmp : ∀ a ∈ r.list, ∀ b ∈ r.list, listCompare a b = a.order.toInt - b.order.toInt := by
    intro a ha b hb
    obtain ⟨a', ha', hoa⟩ := order_mem h hp ha
    obtain ⟨b', hb', hob⟩ := order_mem h hp hb
    apply listCompare_toInt
    · rw [← hoa, ← hob]
      exact hs a' ha' b' hb'
    · rw [← hoa, ← hob]
      exact hs b' hb' a' ha'
  have hcons : Qsort.Consistent listCompare r.list := by
    refine ⟨fun a ha b hb => ?_, fun a ha b hb c hc => ?_⟩
    · rw [hcmp a ha b hb, hcmp b hb a ha]
      omega
    · rw [hcmp a ha b hb, hcmp b hb c hc, hcmp a ha c hc]
      omega
  refine ⟨live r.list, hp, ?_, map_filterMap_func _⟩
  have hle : (live r.list).Pairwise fun a b => listCompare a b ≤ 0 := (h.sorted hcons).filter _
  have hne : (live r.list).Pairwise fun a b => a.order ≠ b.order := by
    have := h.orders
    unfold OrderOnce at this
    rwa [List.nodup_iff_pairwise_ne, List.pairwise_map] at this
  apply (hle.and hne).imp_of_mem
  rintro a b ha hb ⟨hle, hne⟩
  rw [hcmp a (mem_live.mp ha).1 b (mem_live.mp hb).1] at hle
  have hne' : a.order.toInt ≠ b.order.toInt := fun heq => hne (BitVec.eq_of_toInt_eq heq)
  exact lt_of_le_of_ne (by omega) hne'

end RunDown

/-! ## Runs -/

/-- The functions registered, as entries in any order. -/
structure Tables (F : Type) where
  start : List (RunList F) := []
  exit : List (RunList F) := []

section Runs

variable {q : QsortFn F} {s : Lists F} {T : Tables F}

/-- Both lists are in good state. -/
def SoundLists (s : Lists F) : Prop := Sound s.start ∧ Sound s.exit

theorem SoundLists.target (h : SoundLists s) (op : Op F) : Sound (op.target s) := by
  cases op with
  | startup c => exact h.1
  | rundown c => exact h.2

variable [DecidableEq F]

/-- A registration among the tables. -/
def Tables.step (T : Tables F) : Op F → Tables F
  | .startup c => { T with start := register T.start c }
  | .rundown c => { T with exit := register T.exit c }

/-- The lists hold what was registered. -/
structure Refines (s : Lists F) (T : Tables F) : Prop where
  start : (live s.start.list).Perm T.start
  exit : (live s.exit.list).Perm T.exit

theorem SoundLists.step (hq : Qsort.Contract q) (h : SoundLists s) {op : Op F} (hap : Apart (op.target s) op.call)
    (hk : Kept q (op.target s) op.call) : SoundLists (step q s op) := by
  cases op with
  | startup c => exact ⟨h.1.add hq hap hk, h.2⟩
  | rundown c => exact ⟨h.1, h.2.add hq hap hk⟩

/-- The refinement step. -/
theorem Refines.step (h : Refines s T) {op : Op F} (hk : Kept q (op.target s) op.call) :
    Refines (step q s op) (T.step op) := by
  cases op with
  | startup c => exact ⟨hk.entries.trans (register_perm h.start), h.exit⟩
  | rundown c => exact ⟨h.start, hk.entries.trans (register_perm h.exit)⟩

/-- The counters stay below 40 in a run of at most 40 registrations. -/
theorem always_room (ops : List (Op F)) (hstart : s.start.numInserts + ops.length ≤ 40)
    (hexit : s.exit.numInserts + ops.length ≤ 40) :
    Always (step q) (fun s op => (op.target s).numInserts < 40) s ops := by
  have hadd : ∀ (r : Registry F) (c : Call F), (add q r c).1.numInserts ≤ r.numInserts + 1 := by
    intro r c
    unfold add
    split
    · exact Nat.le_succ _
    · exact Nat.le_succ _
    · exact le_rfl
  induction ops generalizing s with
  | nil => trivial
  | cons op ops ih =>
    rw [List.length_cons] at hstart hexit
    cases op with
    | startup c =>
      have := hadd s.start c
      refine ⟨by simp only [Op.target]; omega, ih ?_ ?_⟩
      · simp only [step, startupAdd]
        omega
      · simp only [step, startupAdd]
        omega
    | rundown c =>
      have := hadd s.exit c
      refine ⟨by simp only [Op.target]; omega, ih ?_ ?_⟩
      · simp only [step, rundownAdd]
        omega
      · simp only [step, rundownAdd]
        omega

/-- Runs whose registrations all do what they are for. -/
theorem kept_run (hq : Qsort.Contract q) (ops : List (Op F)) (hs : SoundLists s) (hr : Refines s T)
    (hap : Always (step q) (fun s op => Apart (op.target s) op.call) s ops)
    (hk : Always (step q) (fun s op => Kept q (op.target s) op.call) s ops) :
    SoundLists (run (step q) s ops) ∧ Refines (run (step q) s ops) (run Tables.step T ops) := by
  induction ops generalizing s T with
  | nil => exact ⟨hs, hr⟩
  | cons op ops ih => exact ih (hs.step hq hap.1 hk.1) (hr.step hk.1) hap.2 hk.2

/-- **The registry**: in a run of at most 40 registrations that never give a function the order of another
one, all do what they are for exactly when all are scanned; then `rundown_run` calls every registered function
once, by increasing order. -/
theorem registrations_kept (hq : Qsort.Contract q) (ops : List (Op F)) (hlen : ops.length ≤ 40)
    (hap : Always (step q) (fun s op => Apart (op.target s) op.call) {} ops) :
    (Always (step q) (fun s op => Kept q (op.target s) op.call) {} ops ↔
      Always (step q) (fun s op => Scanned (op.target s) op.call) {} ops) ∧
    (Always (step q) (fun s op => Scanned (op.target s) op.call) {} ops →
      Refines (run (step q) {} ops) (run Tables.step {} ops) ∧
      (Spread (run Tables.step {} ops).exit →
        InOrder (rundownRun (run (step q) {} ops)).1 (run Tables.step {} ops).exit)) := by
  have hs : SoundLists ({} : Lists F) := ⟨sound_empty, sound_empty⟩
  have hr : Refines ({} : Lists F) {} := ⟨by rw [live_empty], by rw [live_empty]⟩
  have hroom : Always (step q) (fun s op => (op.target s).numInserts < 40) {} ops :=
    always_room ops (by simpa [Registry.empty] using hlen) (by simpa [Registry.empty] using hlen)
  have hiff : Always (step q) (fun s op => Kept q (op.target s) op.call) {} ops ↔
      Always (step q) (fun s op => Scanned (op.target s) op.call) {} ops := by
    have hstep : ∀ (s : Lists F) (op : Op F), SoundLists s →
        Apart (op.target s) op.call ∧ (op.target s).numInserts < 40 →
        (Kept q (op.target s) op.call ↔ Scanned (op.target s) op.call) := by
      intro s op hs h
      have hsound := hs.target op
      exact kept_iff_scanned hq hsound.unique h.1 (by rw [hsound.length]; exact h.2)
    refine always_iff_under ?_ hstep ops hs ((always_and ops).mpr ⟨hap, hroom⟩)
    exact fun s op hs h hscan => hs.step hq h.1 ((hstep s op hs h).mpr hscan)
  refine ⟨hiff, fun hscan => ?_⟩
  obtain ⟨hsound, href⟩ := kept_run hq ops hs hr hap (hiff.mpr hscan)
  exact ⟨href, inOrder_of_sound hsound.2 href.exit⟩

end Runs

/-- Function `f` with the order `n`. -/
def regAt (f : ℕ) (n : Dword) : Call ℕ := ⟨f, "f", n, "run.c", 1⟩

theorem registrations_kept_three :
    InOrder (rundownRun (run (step Qsort.insertion) {}
      [.rundown (regAt 0 (-1)), .startup (regAt 0 5), .rundown (regAt 1 (-2))])).1
      (run Tables.step {} [.rundown (regAt 0 (-1)), .startup (regAt 0 5), .rundown (regAt 1 (-2))]).exit :=
  ((registrations_kept Qsort.contract_insertion
    [.rundown (regAt 0 (-1)), .startup (regAt 0 5), .rundown (regAt 1 (-2))] (by decide) (by decide +kernel)).2
    (by decide +kernel)).2 (by decide +kernel)

/-- Two functions with order 10: the first one lies in the last slot, where the loop does not look, and the
second one is taken. -/
theorem registrations_lax :
    Always (step Qsort.insertion) (fun s op => Apart (op.target s) op.call) {}
      [.startup (regAt 0 10), .startup (regAt 1 10)] ∧
    ¬ Always (step Qsort.insertion) (fun s op => Kept Qsort.insertion (op.target s) op.call) {}
      [.startup (regAt 0 10), .startup (regAt 1 10)] := by
  refine ⟨by decide +kernel, ?_⟩
  intro h
  have hres : (add Qsort.insertion (step Qsort.insertion {} (.startup (regAt 0 10))).start
      (regAt 1 10)).2 ≠ -1 := by decide +kernel
  have href : Refused (live (step Qsort.insertion {} (.startup (regAt 0 10))).start.list) (regAt 1 10) := by
    unfold Refused
    decide +kernel
  exact hres (h.2.1.result.mpr href)

end Watt32.Startup
