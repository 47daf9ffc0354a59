import Watt32.Tcp.Md5
import Watt32.Lib.Reads

/-!
# The signature option of a segment that comes in

`check_md5_signature` of `tcp_md5.c` on any segment, as a program that reads the option bytes.

* `findSignR`, `checkMd5SignatureR`; **`eval_checkMd5SignatureR`**: it is `check_md5_signature`.
* `OptionBounded`: the search ends, inside the options.
* `Tidy`: the options for which this is so; **`option_bounded_iff`**.
-/

namespace Watt32.Tcp

open Reads

/-! ## The program -/

/-- The loop over the options, `fuel` of them at most. -/
def findSignR (data : ℕ) : (fuel opt : ℕ) → Reads Byte (Option (Option ℕ))
  | 0, _ => pure none
  | fuel + 1, opt =>
    if data ≤ opt then pure (some none)
    else do
      let kind ← cell opt
      if kind = 19 then pure (some (some opt))
      else if kind = 0 then pure (some none)
      else if kind = 1 then findSignR data fuel (opt + 1)
      else do
        let len ← cell (opt + 1)
        findSignR data fuel (opt + len.toNat)

/-- `memcmp` with the signature: its bytes. -/
def signR : (n a : ℕ) → Reads Byte (List Byte)
  | 0, _ => pure []
  | n + 1, a => do
    let b ← cell a
    let l ← signR n (a + 1)
    return b :: l

/-- What is done with the option that was found. -/
def compareR (digest : List Byte) : Option ℕ → Reads Byte Bool
  | none => pure false
  | some opt => do
    let len ← cell (opt + 1)
    if len ≠ 16 then pure false
    else do
      let sign ← signR 16 (opt + 2)
      return decide (sign = digest)

/-- The part of `check_md5_signature` that reads options; `digest` is the hash of the rest. -/
def checkSignR (digest : List Byte) (data fuel opt : ℕ) : Reads Byte (Option Bool) := do
  match ← findSignR data fuel opt with
  | none => return none
  | some found => do
    let same ← compareR digest found
    return some same

/-- `check_md5_signature`. -/
def checkMd5SignatureR (md5 : List Byte → ℕ → Byte) (secret : Option (List Byte)) (seg : InSegment) (fuel : ℕ) :
    Reads Byte (Option Bool) :=
  match secret with
  | none => pure (some false)
  | some secret => checkSignR (Mem.slice (md5 (signedBytes secret seg)) 0 16) seg.hdr.dataOfs fuel 20

/-! ## The law -/

/-- The search for the signature ends, reads bytes of the options only, and a signature is accepted only if all
of it lies before the data. -/
structure OptionBounded (md5 : List Byte → ℕ → Byte) (secret : Option (List Byte)) (seg : InSegment) : Prop where
  ends : ∃ fuel b, eval seg.mem (checkMd5SignatureR md5 secret seg fuel) = some b
  inside : ∀ fuel, Within (fun a => 20 ≤ a ∧ a < seg.hdr.dataOfs) seg.mem (checkMd5SignatureR md5 secret seg fuel)
  accepted : ∀ fuel, eval seg.mem (checkMd5SignatureR md5 secret seg fuel) = some true →
    ∃ opt, eval seg.mem (findSignR seg.hdr.dataOfs fuel 20) = some (some opt) ∧ opt + 18 ≤ seg.hdr.dataOfs

/-- The options from `opt` on that the search gets over: every length byte is before the data and not 0, and so
is a signature of length 16. -/
inductive Tidy (mem : ℕ → Byte) (data : ℕ) : (opt : ℕ) → Prop
  | past {opt : ℕ} : data ≤ opt → Tidy mem data opt
  | eol {opt : ℕ} : mem opt = 0 → Tidy mem data opt
  | nop {opt : ℕ} : mem opt = 1 → Tidy mem data (opt + 1) → Tidy mem data opt
  | skip {opt : ℕ} : mem opt ∉ [0, 1, 19] → opt + 1 < data → mem (opt + 1) ≠ 0 →
      Tidy mem data (opt + (mem (opt + 1)).toNat) → Tidy mem data opt
  | sign {opt : ℕ} : mem opt = 19 → opt + 1 < data → (mem (opt + 1) = 16 → opt + 18 ≤ data) → Tidy mem data opt

variable {md5 : List Byte → ℕ → Byte} {mem : ℕ → Byte} {data fuel opt n a : ℕ} {digest : List Byte} {P : ℕ → Prop}

theorem eval_findSignR : eval mem (findSignR data fuel opt) = findSign mem data fuel opt := by
  induction fuel generalizing opt with
  | zero => rfl
  | succ fuel ih =>
    rw [findSignR, findSign, eval_ite]
    simp only [eval_bind, eval_ite]
    simp only [eval_cell, eval_pure, ih]

theorem eval_signR : eval mem (signR n a) = Mem.slice mem a n := by
  induction n generalizing a with
  | zero => rfl
  | succ n ih =>
    rw [signR, Nat.add_comm n 1, Mem.slice_add]
    simp only [eval_bind, eval_cell, eval_pure, ih]
    rfl

theorem within_signR : Within P mem (signR n a) ↔ ∀ i < n, P (a + i) := by
  induction n generalizing a with
  | zero => simp [signR]
  | succ n ih =>
    rw [signR]
    simp only [within_bind, within_cell, eval_cell, within_pure, and_true, ih]
    constructor
    · rintro ⟨h0, h⟩ i hi
      cases i with
      | zero => exact h0
      | succ i => exact Nat.add_right_comm a 1 i ▸ h i (by omega)
    · exact fun h => ⟨h 0 (by omega), fun i hi => Nat.add_right_comm a 1 i ▸ h (i + 1) (by omega)⟩

/-- **The same function.** -/
theorem eval_checkMd5SignatureR (secret : Option (List Byte)) (seg : InSegment) :
    eval seg.mem (checkMd5SignatureR md5 secret seg 41) = checkMd5Signature md5 secret seg := by
  cases secret with
  | none => rfl
  | some secret =>
    rw [checkMd5SignatureR, checkMd5Signature, checkSignR]
    simp only [eval_bind, eval_findSignR]
    rcases findSign seg.mem seg.hdr.dataOfs 41 20 with _ | _ | opt
    · rfl
    · rfl
    · simp only [compareR, eval_bind, eval_ite]
      simp only [eval_cell, eval_pure, eval_signR]
      split_ifs <;> rfl

/-! ## One turn -/

theorem within_compareR : Within P mem (compareR digest (some opt)) ↔
    P (opt + 1) ∧ (mem (opt + 1) = 16 → ∀ i < 16, P (opt + 2 + i)) := by
  rw [compareR, within_bind, within_cell, eval_cell]
  by_cases h : mem (opt + 1) = 16
  · rw [if_neg (not_not.mpr h), within_bind, within_signR]
    exact and_congr_right fun _ => ⟨fun hs _ => hs.1, fun hs => ⟨hs h, within_pure⟩⟩
  · rw [if_pos h]
    exact and_congr_right fun _ => ⟨fun _ h16 => absurd h16 h, fun _ => within_pure⟩

theorem eval_compareR_ne (h : mem (opt + 1) ≠ 16) : eval mem (compareR digest (some opt)) = false := by
  rw [compareR, eval_bind, eval_cell, if_pos h, eval_pure]

theorem checkSignR_past (h : data ≤ opt) : checkSignR digest data (fuel + 1) opt = pure (some false) := by
  rw [checkSignR, findSignR, if_pos h]
  rfl

/-- A turn. -/
theorem checkSignR_succ (h : opt < data) : checkSignR digest data (fuel + 1) opt = (do
    let kind ← cell opt
    if kind = 19 then do
      let same ← compareR digest (some opt)
      return some same
    else if kind = 0 then pure (some false)
    else if kind = 1 then checkSignR digest data fuel (opt + 1)
    else do
      let len ← cell (opt + 1)
      checkSignR digest data fuel (opt + len.toNat)) := by
  rw [checkSignR, findSignR, if_neg h.not_ge]
  refine congrArg (Reads.read opt) (funext fun kind => ?_)
  dsimp only [Reads.bind]
  by_cases hsign : kind = 19
  · rw [if_pos hsign, if_pos hsign]
    rfl
  rw [if_neg hsign, if_neg hsign]
  by_cases heol : kind = 0
  · rw [if_pos heol, if_pos heol]
    rfl
  rw [if_neg heol, if_neg heol]
  by_cases hnop : kind = 1
  · rw [if_pos hnop, if_pos hnop]
    rfl
  · rw [if_neg hnop, if_neg hnop]
    rfl

/-- What a turn reads. -/
theorem within_checkSignR_succ (h : opt < data) : Within P mem (checkSignR digest data (fuel + 1) opt) ↔
    P opt ∧
      if mem opt = 19 then Within P mem (compareR digest (some opt))
      else if mem opt = 0 then True
      else if mem opt = 1 then Within P mem (checkSignR digest data fuel (opt + 1))
      else P (opt + 1) ∧ Within P mem (checkSignR digest data fuel (opt + (mem (opt + 1)).toNat)) := by
  rw [checkSignR_succ h, within_bind, within_cell, eval_cell]
  refine and_congr_right fun _ => ?_
  split_ifs
  · rw [within_bind]
    exact and_iff_left within_pure
  · exact iff_of_true within_pure trivial
  · rfl
  · rw [within_bind, within_cell, eval_cell]

/-- What a turn gives. -/
theorem eval_checkSignR_succ (h : opt < data) : eval mem (checkSignR digest data (fuel + 1) opt) =
    if mem opt = 19 then some (eval mem (compareR digest (some opt)))
    else if mem opt = 0 then some false
    else if mem opt = 1 then eval mem (checkSignR digest data fuel (opt + 1))
    else eval mem (checkSignR digest data fuel (opt + (mem (opt + 1)).toNat)) := by
  rw [checkSignR_succ h, eval_bind, eval_cell]
  split_ifs
  · rw [eval_bind, eval_pure]
  · rfl
  · rfl
  · rw [eval_bind, eval_cell]

/-- **An option of length 0** is searched again and again. -/
theorem checkSignR_zero (h : opt < data) (hkind : mem opt ∉ [0, 1, 19]) (hlen : mem (opt + 1) = 0) :
    eval mem (checkSignR digest data fuel opt) = none := by
  simp only [List.mem_cons, List.not_mem_nil, or_false, not_or] at hkind
  induction fuel with
  | zero => rfl
  | succ fuel ih =>
    rw [eval_checkSignR_succ h, if_neg hkind.2.2, if_neg hkind.1, if_neg hkind.2.1, hlen]
    exact ih

/-! ## All turns -/

theorem tidy_of_checkSignR {b : Bool} (hends : eval mem (checkSignR digest data fuel opt) = some b)
    (hin : Within (fun a => 20 ≤ a ∧ a < data) mem (checkSignR digest data fuel opt)) : Tidy mem data opt := by
  induction fuel generalizing opt with
  | zero => cases hends
  | succ fuel ih =>
    rcases le_or_gt data opt with h | h
    · exact .past h
    rw [within_checkSignR_succ h] at hin
    obtain ⟨-, hin⟩ := hin
    by_cases hsign : mem opt = 19
    · rw [if_pos hsign, within_compareR] at hin
      exact .sign hsign hin.1.2 fun h16 => by
        have := (hin.2 h16 15 (by decide)).2
        omega
    by_cases heol : mem opt = 0
    · exact .eol heol
    rw [eval_checkSignR_succ h, if_neg hsign, if_neg heol] at hends
    rw [if_neg hsign, if_neg heol] at hin
    by_cases hnop : mem opt = 1
    · rw [if_pos hnop] at hends hin
      exact .nop hnop (ih hends hin)
    · rw [if_neg hnop] at hends hin
      have hkind : mem opt ∉ [0, 1, 19] := by
        simp only [List.mem_cons, List.not_mem_nil, or_false, not_or]
        exact ⟨heol, hnop, hsign⟩
      refine .skip hkind hin.1.2 (fun h0 => ?_) (ih hends hin.2)
      rw [h0] at hends
      rw [show opt + (0 : Byte).toNat = opt from rfl, checkSignR_zero h hkind h0] at hends
      cases hends

theorem Tidy.within (h : Tidy mem data opt) (hopt : 20 ≤ opt) (fuel : ℕ) :
    Within (fun a => 20 ≤ a ∧ a < data) mem (checkSignR digest data fuel opt) := by
  induction h generalizing fuel with
  | @past opt hpast =>
    cases fuel with
    | zero => exact within_pure
    | succ fuel =>
      rw [checkSignR_past hpast]
      exact within_pure
  | @eol opt heol =>
    cases fuel with
    | zero => exact within_pure
    | succ fuel =>
      rcases le_or_gt data opt with hpast | hlt
      · rw [checkSignR_past hpast]
        exact within_pure
      · rw [within_checkSignR_succ hlt, heol, if_neg (by decide), if_pos rfl]
        exact ⟨⟨hopt, hlt⟩, trivial⟩
  | @nop opt hnop _ ih =>
    cases fuel with
    | zero => exact within_pure
    | succ fuel =>
      rcases le_or_gt data opt with hpast | hlt
      · rw [checkSignR_past hpast]
        exact within_pure
      · rw [within_checkSignR_succ hlt, hnop, if_neg (by decide), if_neg (by decide), if_pos rfl]
        exact ⟨⟨hopt, hlt⟩, ih (by omega) fuel⟩
  | @skip opt hkind hlen _ _ ih =>
    simp only [List.mem_cons, List.not_mem_nil, or_false, not_or] at hkind
    cases fuel with
    | zero => exact within_pure
    | succ fuel =>
      rw [within_checkSignR_succ (by omega), if_neg hkind.2.2, if_neg hkind.1, if_neg hkind.2.1]
      exact ⟨⟨hopt, by omega⟩, ⟨by omega, hlen⟩, ih (by omega) fuel⟩
  | @sign opt hsign hlen h16 =>
    cases fuel with
    | zero => exact within_pure
    | succ fuel =>
      rw [within_checkSignR_succ (by omega), if_pos hsign, within_compareR]
      refine ⟨⟨hopt, by omega⟩, ⟨by omega, hlen⟩, fun h i hi => ?_⟩
      have := h16 h
      omega

theorem Tidy.ends (h : Tidy mem data opt) : ∃ fuel b, eval mem (checkSignR digest data fuel opt) = some b := by
  induction h with
  | past hpast => exact ⟨1, false, by rw [checkSignR_past hpast]; rfl⟩
  | @eol opt heol =>
    rcases le_or_gt data opt with hpast | hlt
    · exact ⟨1, false, by rw [checkSignR_past hpast]; rfl⟩
    · exact ⟨1, false, by rw [eval_checkSignR_succ hlt, heol]; rfl⟩
  | @nop opt hnop _ ih =>
    obtain ⟨fuel, b, hb⟩ := ih
    rcases le_or_gt data opt with hpast | hlt
    · exact ⟨1, false, by rw [checkSignR_past hpast]; rfl⟩
    · refine ⟨fuel + 1, b, ?_⟩
      rw [eval_checkSignR_succ hlt, hnop, if_neg (by decide), if_neg (by decide), if_pos rfl, hb]
  | @skip opt hkind hlen _ _ ih =>
    simp only [List.mem_cons, List.not_mem_nil, or_false, not_or] at hkind
    obtain ⟨fuel, b, hb⟩ := ih
    refine ⟨fuel + 1, b, ?_⟩
    rw [eval_checkSignR_succ (by omega), if_neg hkind.2.2, if_neg hkind.1, if_neg hkind.2.1, hb]
  | @sign opt hsign hlen _ =>
    exact ⟨1, _, by rw [eval_checkSignR_succ (by omega), if_pos hsign]⟩

/-- What is found is before the data. -/
theorem Tidy.found (h : Tidy mem data opt) {o : ℕ} (ho : findSign mem data fuel opt = some (some o)) :
    mem (o + 1) = 16 → o + 18 ≤ data := by
  induction h generalizing fuel with
  | past hpast =>
    cases fuel with
    | zero => cases ho
    | succ fuel => rw [findSign, if_pos hpast] at ho; cases ho
  | eol heol =>
    cases fuel with
    | zero => cases ho
    | succ fuel =>
      rw [findSign, heol] at ho
      split_ifs at ho <;> first | contradiction | cases ho
  | nop hnop _ ih =>
    cases fuel with
    | zero => cases ho
    | succ fuel =>
      rw [findSign, hnop, if_neg (show (1 : Byte) ≠ 19 by decide), if_neg (show (1 : Byte) ≠ 0 by decide),
        if_pos rfl] at ho
      split_ifs at ho
      · cases ho
      · exact ih ho
  | skip hkind _ _ _ ih =>
    simp only [List.mem_cons, List.not_mem_nil, or_false, not_or] at hkind
    cases fuel with
    | zero => cases ho
    | succ fuel =>
      rw [findSign, if_neg hkind.2.2, if_neg hkind.1, if_neg hkind.2.1] at ho
      split_ifs at ho
      · cases ho
      · exact ih ho
  | sign hsign hlen h16 =>
    cases fuel with
    | zero => cases ho
    | succ fuel =>
      rw [findSign, if_neg (by omega), if_pos hsign, Option.some.injEq, Option.some.injEq] at ho
      exact ho ▸ h16

/-- **The options of a segment** are searched to an end and inside exactly if they are tidy. -/
theorem option_bounded_iff (md5 : List Byte → ℕ → Byte) (secret : List Byte) (seg : InSegment) :
    OptionBounded md5 (some secret) seg ↔ Tidy seg.mem seg.hdr.dataOfs 20 := by
  constructor
  · rintro ⟨⟨fuel, b, hends⟩, hin, -⟩
    exact tidy_of_checkSignR hends (hin fuel)
  · intro h
    refine ⟨h.ends, h.within le_rfl, fun fuel htrue => ?_⟩
    rw [checkMd5SignatureR, checkSignR] at htrue
    simp only [eval_bind, eval_findSignR] at htrue ⊢
    rcases hfind : findSign seg.mem seg.hdr.dataOfs fuel 20 with _ | _ | opt
    · rw [hfind] at htrue
      cases htrue
    · rw [hfind] at htrue
      cases htrue
    · refine ⟨opt, rfl, h.found hfind ?_⟩
      by_contra hne
      rw [hfind, eval_bind, eval_compareR_ne hne] at htrue
      cases htrue

/-- A segment whose only option has the length 0. -/
def endlessSegment : InSegment where
  source := 0
  destination := 0
  tos := 0
  hdr := ⟨0, 0, 0, 0, 6, ⟨false, false, false, false, false, false⟩, 0⟩
  flagsHi := 0
  tcpLen := 24
  mem := Mem.put (fun _ => 0) 20 [30, 0, 0, 0]

/-- The search of it does not end. -/
theorem endless_option : ¬OptionBounded (fun _ _ => 0) (some []) endlessSegment := by
  rintro ⟨⟨fuel, b, hends⟩, -⟩
  rw [checkMd5SignatureR, checkSignR_zero (by decide) (by decide) (by decide)] at hends
  cases hends

end Watt32.Tcp
