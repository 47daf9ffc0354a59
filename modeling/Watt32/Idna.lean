import Mathlib.Data.List.Basic
import Mathlib.Tactic

/-!
# Internationalised names

`IDNA_convert_to_ACE` and `IDNA_convert_from_ACE` over the conversion of one label, which is a
parameter.

* `splitLabels`: `split_labels`, into eight rows of 80 bytes.
* `convertLoop`: the loop over the labels, with all that it touches at `name`.
* `Bounded`: no more than `*size` bytes are touched, and a success leaves all labels converted.
* **`idna_bounded_iff`**: when both conversions are bounded.
-/

namespace Watt32.Idna

abbrev Byte := BitVec 8

/-- A label, and its conversion by the punycode coder: NULL, or a string. -/
abbrev Label := List Byte
abbrev Coder := Label → Option Label

def dot : Byte := 46

/-- `"xn--"`. -/
def xn : Label := [120, 110, 45, 45]

/-- `MAX_LABELS` and `MAX_HOSTLEN`. -/
def maxLabels : ℕ := 8
def maxHostlen : ℕ := 80

/-! ## The program -/

/-- `split_labels`: `n` rows of `buf` are free. A row has no room for a label as long as itself, and
only the last label is cut to fit. -/
def splitLabels : (n : ℕ) → (p : List Byte) → Option (List Label)
  | 0, _ => some []
  | _ + 1, [] => some []
  | n + 1, c :: p =>
    if dot ∈ c :: p then
      let label := (c :: p).takeWhile (· ≠ dot)
      if label.length + 1 ≤ maxHostlen then
        (splitLabels n ((c :: p).drop (label.length + 1))).map (label :: ·)
      else none
    else some [(c :: p).take (maxHostlen - 1)]

/-- What there is at `name`: the text up to where `name` points, and how many bytes have been touched. -/
structure Output where
  text : List Byte := []
  touched : ℕ := 0

/-- `name += sprintf (name, "%s.", s)`. -/
def Output.sprintf (o : Output) (s : Label) : Output where
  text := o.text ++ s ++ [dot]
  touched := max o.touched (o.text.length + s.length + 2)

/-- `*name = '\0'`. -/
def Output.terminate (o : Output) : Output := { o with touched := max o.touched (o.text.length + 1) }

/-- The loop over the labels; `convert` says what is written for one, or that FALSE is returned. -/
def convertLoop (convert : Coder) : List Label → Output → Output × Bool
  | [], o => (o, true)
  | label :: labels, o =>
    match convert label with
    | none => (o, false)
    | some s => convertLoop convert labels (o.sprintf s)

/-- `strnicmp (label, "xn--", 4)` is 0. -/
def isXn (label : Label) : Bool :=
  (label.take 4).map (fun c => if 65 ≤ c.toNat ∧ c.toNat ≤ 90 then c + 32 else c) = xn

/-- What a label becomes in ACE form. -/
def toAce (coder : Coder) (label : Label) : Option Label :=
  if isXn label then some label
  else if label.any (0x80 ≤ ·.toNat) then (coder label).map (xn ++ ·)
  else some label

/-- What a label in ACE form becomes. -/
def fromAce (coder : Coder) (label : Label) : Option Label :=
  if label.take 4 = xn ∧ 4 < label.length then coder (label.drop 4) else some label

/-- What a conversion leaves: `text` is a string if it succeeds. -/
structure Result where
  ok : Bool
  text : List Byte
  touched : ℕ
  size : ℕ

/-- The turn of `IDNA_convert_to_ACE` for a label. `len` is 0 until the loop is over. -/
def toAceTurn (coder : Coder) (size : ℕ) (label : Label) : Option Label := do
  let len := 0
  let s ← toAce coder label
  if size < len + 1 + s.length then none else some s

/-- `IDNA_convert_to_ACE`. -/
def convertToAce (coder : Coder) (name : List Byte) (size : ℕ) : Option Result := do
  let labels ← splitLabels maxLabels name
  let r := convertLoop (toAceTurn coder size) labels {}
  if r.2 then
    let o := Output.terminate { r.1 with text := r.1.text.dropLast }
    some ⟨true, o.text, o.touched, o.text.length⟩
  else some ⟨false, r.1.text, r.1.touched, size⟩

/-- `IDNA_convert_from_ACE`; the last dot stays. -/
def convertFromAce (coder : Coder) (name : List Byte) (size : ℕ) : Option Result := do
  let labels ← splitLabels maxLabels name
  let r := convertLoop (fromAce coder) labels {}
  if r.2 then
    let o := r.1.terminate
    some ⟨true, o.text, o.touched, o.text.length⟩
  else some ⟨false, r.1.text, r.1.touched, size⟩

/-! ## What they are to do -/

/-- The labels of a name, without the empty one behind a trailing dot. -/
def labelsOf (name : List Byte) : List Label :=
  if (name.splitOn dot).getLast? = some [] then (name.splitOn dot).dropLast else name.splitOn dot

/-- Labels, each with a dot behind it. -/
def dotted (labels : List Label) : List Byte := labels.flatMap (· ++ [dot])

/-- A conversion touches `size` bytes at most; and if it succeeds, it leaves the labels of the name,
each converted, in the form of `join`. -/
def Bounded (convert : Coder) (join : List Label → List Byte) (name : List Byte) (size : ℕ) :
    Option Result → Prop
  | none => False
  | some r => r.touched ≤ size ∧
      (r.ok = true → ∃ ts, (labelsOf name).mapM convert = some ts ∧ r.text = join ts ∧ r.size = r.text.length)

/-! ## The conditions -/

/-- The labels among the first eight that have a dot behind them fit into a row. -/
def RowsFit (name : List Byte) : Prop :=
  ∀ l ∈ (name.splitOn dot).dropLast.take maxLabels, l.length < maxHostlen

/-- The labels as `split_labels` leaves them: eight at most, of 79 bytes at most. -/
def cutLabels (name : List Byte) : List Label :=
  ((labelsOf name).take maxLabels).map (·.take (maxHostlen - 1))

/-- What is written before a label is refused. -/
def accepted (convert : Coder) : List Label → List Label
  | [] => []
  | label :: labels =>
    match convert label with
    | none => []
    | some s => s :: accepted convert labels

/-- Every label is written. -/
def AllAccepted (convert : Coder) (name : List Byte) : Prop :=
  ∀ l ∈ cutLabels name, (convert l).isSome

instance {convert : Coder} {name : List Byte} : Decidable (AllAccepted convert name) :=
  inferInstanceAs (Decidable (∀ l ∈ cutLabels name, _))

/-- What is written, with a byte for each dot and one for the terminator, takes `size` bytes at most,
unless the first label is refused. -/
def RoomFor (convert : Coder) (name : List Byte) (size : ℕ) : Prop :=
  (dotted (accepted convert (cutLabels name))).length < size ∨
    accepted convert (cutLabels name) = [] ∧ cutLabels name ≠ []

/-- No label is left out, and none is converted otherwise because it is cut. -/
def Complete (convert : Coder) (name : List Byte) : Prop :=
  (labelsOf name).length ≤ maxLabels ∧ ∀ l ∈ labelsOf name, convert (l.take (maxHostlen - 1)) = convert l

variable {coder convert turn : Coder} {join : List Label → List Byte} {name p : List Byte} {size n : ℕ}
  {label l : Label} {labels ls ts ts' : List Label} {o : Output}

/-! ## Splitting -/

theorem splitOn_of_mem (h : dot ∈ p) : p.splitOn dot =
    p.takeWhile (· ≠ dot) :: (p.drop ((p.takeWhile (· ≠ dot)).length + 1)).splitOn dot := by
  induction p with
  | nil => cases h
  | cons c p ih =>
    rw [List.splitOn, List.splitOnP_cons_eq_if_modifyHead]
    by_cases hc : c = dot
    · subst hc
      simp [List.splitOn]
    · have hmem : dot ∈ p := (List.mem_cons.mp h).resolve_left (Ne.symm hc)
      have ih := ih hmem
      rw [List.splitOn] at ih
      rw [if_neg (by simpa using hc), ih, List.takeWhile_cons_of_pos (by simpa using hc)]
      rfl

theorem splitOn_of_not_mem (h : dot ∉ p) : p.splitOn dot = [p] := by
  induction p with
  | nil => rfl
  | cons c p ih =>
    obtain ⟨hc, hp⟩ := not_or.mp (mt List.mem_cons.mpr h)
    have ih := ih hp
    rw [List.splitOn] at ih ⊢
    rw [List.splitOnP_cons_eq_if_modifyHead, if_neg (by simpa using Ne.symm hc), ih]
    rfl

theorem labelsOf_of_not_mem (h : dot ∉ p) (hp : p ≠ []) : labelsOf p = [p] := by
  rw [labelsOf, splitOn_of_not_mem h]
  simp [hp]

theorem labelsOf_of_mem (h : dot ∈ p) : labelsOf p =
    p.takeWhile (· ≠ dot) :: labelsOf (p.drop ((p.takeWhile (· ≠ dot)).length + 1)) := by
  unfold labelsOf
  rw [splitOn_of_mem h]
  generalize p.drop ((p.takeWhile (· ≠ dot)).length + 1) = rest
  obtain ⟨x, xs, hx⟩ := List.exists_cons_of_ne_nil (List.splitOnP_ne_nil (· == dot) rest)
  rw [show rest.splitOn dot = x :: xs from hx, List.getLast?_cons_cons, List.dropLast_cons_cons]
  split_ifs <;> rfl

/-- **What `split_labels` leaves.** -/
theorem splitLabels_eq : splitLabels n p =
    if ∀ l ∈ (p.splitOn dot).dropLast.take n, l.length < maxHostlen
    then some (((labelsOf p).take n).map (·.take (maxHostlen - 1))) else none := by
  induction n generalizing p with
  | zero => simp [splitLabels]
  | succ n ih =>
    cases p with
    | nil => simp [splitLabels, labelsOf]
    | cons c p =>
      rw [splitLabels]
      by_cases hdot : dot ∈ c :: p
      · rw [if_pos hdot, splitOn_of_mem hdot, labelsOf_of_mem hdot]
        dsimp only
        generalize (c :: p).drop (((c :: p).takeWhile (· ≠ dot)).length + 1) = rest at ih ⊢
        generalize (c :: p).takeWhile (· ≠ dot) = label
        obtain ⟨x, xs, hx⟩ := List.exists_cons_of_ne_nil (List.splitOnP_ne_nil (· == dot) rest)
        have ih := ih (p := rest)
        rw [show rest.splitOn dot = x :: xs from hx] at ih ⊢
        rw [List.dropLast_cons_cons, List.take_succ_cons, List.take_succ_cons, List.map_cons, ih]
        by_cases hlen : label.length + 1 ≤ maxHostlen
        · have hcut : label.take (maxHostlen - 1) = label := List.take_of_length_le (by unfold maxHostlen at *; omega)
          rw [if_pos hlen, hcut]
          simp only [List.forall_mem_cons, show label.length < maxHostlen from hlen, true_and]
          split_ifs <;> rfl
        · rw [if_neg hlen, if_neg fun h => hlen (h label (List.mem_cons_self ..))]
      · rw [if_neg hdot, splitOn_of_not_mem hdot, labelsOf_of_not_mem hdot (List.cons_ne_nil c p)]
        simp

/-! ## The loop -/

theorem dotted_cons : dotted (l :: ls) = l ++ [dot] ++ dotted ls := rfl

theorem dotted_eq_intercalate (h : ts ≠ []) : dotted ts = [dot].intercalate ts ++ [dot] := by
  induction ts with
  | nil => exact absurd rfl h
  | cons t ts ih =>
    cases ts with
    | nil => simp [dotted, List.intercalate]
    | cons u ts =>
      rw [dotted_cons, ih (List.cons_ne_nil u ts)]
      simp [List.intercalate]

/-- **What the loop leaves.** -/
theorem convertLoop_eq (ho : o.touched ≤ o.text.length + 1) : convertLoop convert ls o =
    ({ text := o.text ++ dotted (accepted convert ls)
       touched := if accepted convert ls = [] then o.touched
         else o.text.length + (dotted (accepted convert ls)).length + 1 },
      decide (∀ l ∈ ls, (convert l).isSome)) := by
  induction ls generalizing o with
  | nil => simp [convertLoop, accepted, dotted]
  | cons l ls ih =>
    rw [convertLoop, accepted]
    cases hl : convert l with
    | none => simp [dotted, hl]
    | some s =>
      dsimp only
      rw [ih (by simp [Output.sprintf]; omega), if_neg (List.cons_ne_nil s _), dotted_cons]
      simp only [Output.sprintf, List.append_assoc, List.length_append, List.forall_mem_cons, hl, Option.isSome_some,
        true_and, Prod.mk.injEq, Output.mk.injEq, List.length_singleton, and_true]
      split_ifs with ha
      · rw [ha]
        simp [dotted]
        omega
      · omega

theorem accepted_eq_nil_iff (h : ∀ l ∈ ls, (convert l).isSome) : accepted convert ls = [] ↔ ls = [] := by
  cases ls with
  | nil => exact iff_of_true rfl rfl
  | cons l ls =>
    obtain ⟨s, hs⟩ := Option.isSome_iff_exists.mp (h l (List.mem_cons_self ..))
    simp [accepted, hs]

theorem mapM_accepted (h : ∀ l ∈ ls, (turn l).isSome) (ht : ∀ l s, turn l = some s → convert l = some s) :
    ls.mapM convert = some (accepted turn ls) := by
  induction ls with
  | nil => rfl
  | cons l ls ih =>
    obtain ⟨hl, h⟩ := List.forall_mem_cons.mp h
    obtain ⟨s, hs⟩ := Option.isSome_iff_exists.mp hl
    rw [List.mapM_cons, ht l s hs, ih h, accepted, hs]
    rfl

theorem mapM_cons_some {f : Coder} : (l :: ls).mapM f = some ts ↔
    ∃ t ts', f l = some t ∧ ls.mapM f = some ts' ∧ ts = t :: ts' := by
  rw [List.mapM_cons]
  cases f l <;> cases ls.mapM f <;> simp [eq_comm]

theorem mapM_congr {f g : Coder} (h : ∀ l ∈ ls, f l = g l) : ls.mapM f = ls.mapM g := by
  induction ls with
  | nil => rfl
  | cons l ls ih =>
    obtain ⟨hl, h⟩ := List.forall_mem_cons.mp h
    rw [List.mapM_cons, List.mapM_cons, hl, ih h]

theorem mapM_eq_nil {f : Coder} (h : ls.mapM f = some ts) : ts = [] ↔ ls = [] := by
  cases ls with
  | nil => exact iff_of_true (Option.some.inj h).symm rfl
  | cons l ls =>
    obtain ⟨t, ts, -, -, rfl⟩ := mapM_cons_some.mp h
    simp

theorem dotted_cons_inj {t : Label} (h : dotted (t :: ts) = dotted (t :: ts')) : dotted ts = dotted ts' := by
  rw [dotted_cons, dotted_cons] at h
  exact List.append_cancel_left h

/-- Labels of which only the first `n` are written, and only the last may be converted in two ways: the
text is right exactly if none is left out and each is converted in one way. -/
theorem dotted_eq_iff {f g : Coder} (hf : (ls.take n).mapM f = some ts)
    (hfg : ∀ l ∈ ls.dropLast.take n, f l = g l) :
    (∃ ts', ls.mapM g = some ts' ∧ dotted ts = dotted ts') ↔ ls.length ≤ n ∧ ∀ l ∈ ls, f l = g l := by
  constructor
  · rintro ⟨ts', hg, heq⟩
    induction ls generalizing n ts ts' with
    | nil => exact ⟨Nat.zero_le n, by simp⟩
    | cons l ls ih =>
      obtain ⟨u, us, hgl, hgs, rfl⟩ := mapM_cons_some.mp hg
      cases n with
      | zero =>
        cases hf
        simp [dotted] at heq
      | succ n =>
        rw [List.take_succ_cons] at hf
        obtain ⟨t, ts, hfl, hfs, rfl⟩ := mapM_cons_some.mp hf
        cases ls with
        | nil =>
          cases hgs
          rw [List.take_nil] at hfs
          cases hfs
          have htu : t = u := by simpa [dotted] using heq
          exact ⟨by simp, by simp [hfl, hgl, htu]⟩
        | cons x xs =>
          rw [List.dropLast_cons_cons, List.take_succ_cons] at hfg
          obtain ⟨hl, hfg⟩ := List.forall_mem_cons.mp hfg
          obtain rfl : t = u := Option.some.inj (hfl.symm.trans (hl.trans hgl))
          obtain ⟨hlen, hall⟩ := ih hfs hfg us hgs (dotted_cons_inj heq)
          exact ⟨Nat.succ_le_succ hlen, List.forall_mem_cons.mpr ⟨hl, hall⟩⟩
  · rintro ⟨hlen, hall⟩
    rw [List.take_of_length_le hlen] at hf
    refine ⟨ts, ?_, rfl⟩
    rw [← hf, mapM_congr hall]

/-! ## The conversions -/

theorem cut_of_rowsFit (h : RowsFit name) : ∀ l ∈ (labelsOf name).dropLast.take maxLabels,
    convert (l.take (maxHostlen - 1)) = convert l := by
  intro l hl
  have hsub : (labelsOf name).dropLast <+: (name.splitOn dot).dropLast := by
    unfold labelsOf
    split_ifs
    · exact List.dropLast_prefix _
    · exact List.prefix_refl _
  have hlen := h l ((hsub.take _).subset hl)
  rw [List.take_of_length_le (by unfold maxHostlen at *; omega)]

/-- What is written is the text of all labels exactly if they are complete. -/
theorem complete_iff (hrows : RowsFit name) (hall : AllAccepted turn name)
    (ht : ∀ l s, turn l = some s → convert l = some s) {fin : List Byte → List Byte}
    (hjoin : ∀ ts ts', (ts = [] ↔ ts' = []) → (fin (dotted ts) = join ts' ↔ dotted ts = dotted ts')) :
    (∃ ts', (labelsOf name).mapM convert = some ts' ∧ fin (dotted (accepted turn (cutLabels name))) = join ts') ↔
      Complete convert name := by
  have hmap : (cutLabels name).mapM convert = some (accepted turn (cutLabels name)) := mapM_accepted hall ht
  have hnil : accepted turn (cutLabels name) = [] ↔ labelsOf name = [] := by
    rw [accepted_eq_nil_iff hall]
    simp [cutLabels, maxLabels]
  rw [cutLabels, List.mapM_map] at hmap
  refine Iff.trans (exists_congr fun ts' => and_congr_right fun hts => ?_)
    (dotted_eq_iff hmap (cut_of_rowsFit hrows))
  rw [← cutLabels]
  exact hjoin _ _ (hnil.trans (mapM_eq_nil hts).symm)

/-- **One conversion**: the loop with its checks, and an end that leaves `fin` of the text. -/
theorem bounded_of (fin : List Byte → List Byte) (ht : ∀ l s, turn l = some s → convert l = some s)
    (hlen : ∀ x, (fin x).length ≤ x.length)
    (hjoin : ∀ ts ts', (ts = [] ↔ ts' = []) → (fin (dotted ts) = join ts' ↔ dotted ts = dotted ts')) :
    Bounded convert join name size (do
      let labels ← splitLabels maxLabels name
      let r := convertLoop turn labels {}
      if r.2 then
        let o := Output.terminate { r.1 with text := fin r.1.text }
        some ⟨true, o.text, o.touched, o.text.length⟩
      else some ⟨false, r.1.text, r.1.touched, size⟩) ↔
      RowsFit name ∧ RoomFor turn name size ∧ (AllAccepted turn name → Complete convert name) := by
  by_cases hrows : RowsFit name
  · have hsplit : splitLabels maxLabels name = some (cutLabels name) := by
      rw [splitLabels_eq]
      exact if_pos hrows
    have hloop : convertLoop turn (cutLabels name) {} =
        ({ text := dotted (accepted turn (cutLabels name))
           touched := if accepted turn (cutLabels name) = [] then 0
             else (dotted (accepted turn (cutLabels name))).length + 1 }, decide (AllAccepted turn name)) := by
      rw [convertLoop_eq (Nat.zero_le _)]
      exact Prod.ext (by simp) (decide_eq_decide.mpr Iff.rfl)
    rw [hsplit, Option.bind_eq_bind, Option.bind_some, hloop]
    by_cases hall : AllAccepted turn name
    · have hnil : accepted turn (cutLabels name) = [] ↔ cutLabels name = [] := accepted_eq_nil_iff hall
      have hcomplete := complete_iff hrows hall ht hjoin
      have hfin := hlen (dotted (accepted turn (cutLabels name)))
      have htouched : max (if accepted turn (cutLabels name) = [] then 0
          else (dotted (accepted turn (cutLabels name))).length + 1)
            ((fin (dotted (accepted turn (cutLabels name)))).length + 1) ≤ size ↔ RoomFor turn name size := by
        unfold RoomFor
        by_cases h0 : accepted turn (cutLabels name) = []
        · have hcut := hnil.mp h0
          rw [h0] at hfin ⊢
          simp only [dotted, List.flatMap_nil, List.length_nil, if_true, hcut, ne_eq, not_true, and_false,
            or_false] at hfin ⊢
          omega
        · rw [if_neg h0]
          have hne : ¬(accepted turn (cutLabels name) = [] ∧ cutLabels name ≠ []) := fun h => h0 h.1
          simp only [hne, or_false]
          omega
      dsimp only
      rw [if_pos (decide_eq_true hall)]
      change (_ ≤ size ∧ _) ↔ _
      rw [Output.terminate, htouched]
      simp only [hrows, hall, true_and, forall_const, and_true, hcomplete]
    · dsimp only
      rw [if_neg (by rw [decide_eq_true_iff]; exact hall)]
      have hne : cutLabels name ≠ [] := fun h => hall (by rw [AllAccepted, h]; simp)
      unfold RoomFor Bounded
      simp only [hrows, hall, true_and, false_imp_iff, and_true, reduceCtorEq, ne_eq, hne, not_false_eq_true]
      split_ifs with h0
      · simp [h0]
      · simp only [h0, or_false]
        omega
  · have hsplit : splitLabels maxLabels name = none := by
      rw [splitLabels_eq]
      exact if_neg hrows
    rw [hsplit]
    exact iff_of_false id fun h => hrows h.1

/-- **The conversions are bounded**: exactly on which names. -/
theorem idna_bounded_iff (coder : Coder) (name : List Byte) (size : ℕ) :
    (Bounded (toAce coder) [dot].intercalate name size (convertToAce coder name size) ↔
      RowsFit name ∧ RoomFor (toAceTurn coder size) name size ∧
        (AllAccepted (toAceTurn coder size) name → Complete (toAce coder) name)) ∧
    (Bounded (fromAce coder) dotted name size (convertFromAce coder name size) ↔
      RowsFit name ∧ RoomFor (fromAce coder) name size ∧
        (AllAccepted (fromAce coder) name → Complete (fromAce coder) name)) := by
  constructor
  · refine bounded_of List.dropLast (fun l s h => ?_) (fun x => by simp) fun ts ts' hnil => ?_
    · unfold toAceTurn at h
      cases hl : toAce coder l with
      | none => rw [hl] at h; cases h
      | some t =>
        rw [hl, Option.bind_eq_bind, Option.bind_some] at h
        split_ifs at h
        exact h
    · by_cases h0 : ts = []
      · rw [h0, hnil.mp h0]
        exact iff_of_true rfl rfl
      · rw [dotted_eq_intercalate h0, dotted_eq_intercalate (mt hnil.mpr h0), List.dropLast_concat,
          List.append_left_inj]
  · exact bounded_of id (fun _ _ => id) (fun x => le_rfl) fun ts ts' _ => Iff.rfl

/-- `IDNA_convert_to_ACE` of `a.b` in four bytes touches five: only each label is checked. -/
theorem second_label_overruns : ¬Bounded (toAce fun _ => none) [dot].intercalate [97, 46, 98] 4
    (convertToAce (fun _ => none) [97, 46, 98] 4) := by
  rintro ⟨h, -⟩
  revert h
  decide

end Watt32.Idna
