import Mathlib.Data.List.TakeWhile
import Watt32.Ppp.Input

/-!
# What is read of options, and what is written for them

* `Scan`, `RequestFits`, `RcxFits`: the options that are read inside a frame, with a reply that fits into `outbuffer`.
* `gives_checkOptionR`, `gives_processOptionR`: what a turn over an option reads and writes; **`gives_optionLoopR`**:
  what the loop does.
* **`gives_validateRequestR`**, **`gives_processRcxR`**: the two functions that loop.
-/

namespace Watt32.Ppp

open Mem Reads

/-! ## The conditions -/

/-- The options with `rlen` bytes from `bp` on: each length that the loop looks at is among the `R` bytes of the
frame. -/
inductive Scan (m : ℕ → Byte) (R : ℕ) : (rlen bp : ℕ) → Prop
  | short {rlen bp : ℕ} : rlen < 2 → Scan m R rlen bp
  | cut {rlen bp : ℕ} : bp + 1 + inOfs < R → rlen < (m (bp + 1)).toNat → Scan m R rlen bp
  | next {rlen bp : ℕ} : bp + 1 + inOfs < R → (m (bp + 1)).toNat ≤ rlen →
      Scan m R (rlen - optionLength m bp) (bp + optionLength m bp) → Scan m R rlen bp

/-- How much of an option `validate_request` reads, while options are rejected or not. -/
def requestReads (x : Xcp) (m : ℕ → Byte) (rejecting : Prop) [Decidable rejecting] (bp : ℕ) : ℕ :=
  match findType x (m bp) with
  | none => optionLength m bp
  | some (t, _) =>
    if (m (bp + 1)).toNat < t.minlen then if rejecting then 2 else t.minlen
    else if t.maxlen < (m (bp + 1)).toNat then if rejecting then 2 else t.maxlen
    else if t.validateReq then 6 else 2

/-- How much an option adds to a Configure-Nak. -/
def nakLength (x : Xcp) (s : PppState) (bp : ℕ) : ℕ :=
  match findType x (s.inbuffer bp) with
  | none => 0
  | some (t, i) =>
    if (s.inbuffer (bp + 1)).toNat < t.minlen then t.minlen
    else if t.maxlen < (s.inbuffer (bp + 1)).toNat then t.maxlen
    else if t.validateReq ∧ ¬ (get32 s.inbuffer (bp + 2) ≠ ((s.xcp x).opts i).myValue ∧
        get32 s.inbuffer (bp + 2) &&& remoteIpMask = remoteIpBase) then t.minlen
    else 0

/-- The options before the first one that is not known. -/
def knownFirst (x : Xcp) (m : ℕ → Byte) (ps : List ℕ) : List ℕ := ps.takeWhile fun bp => (findType x (m bp)).isSome

/-- A Configure-Request is read inside, and the options that are rejected fit into a reply, as do those to which a Nak
is given before the first of them. -/
structure RequestFits (x : Xcp) (R : ℕ) (s : PppState) : Prop where
  scan : Scan s.inbuffer R s.mlen.toNat s.bp
  reads : ∀ qs bp rs, s.options.1 = qs ++ bp :: rs →
    bp + requestReads x s.inbuffer (unknown x s.inbuffer qs ≠ []) bp + inOfs ≤ R
  rejected : 6 + ((unknown x s.inbuffer s.options.1).map (optionLength s.inbuffer)).sum ≤ pppMru
  naked : 6 + ((knownFirst x s.inbuffer s.options.1).map (nakLength x s)).sum ≤ pppMru

/-- How much of an option `process_rcx` reads. -/
def rcxReads (x : Xcp) (code : Byte) (m : ℕ → Byte) (bp : ℕ) : ℕ :=
  match findType x (m bp) with
  | none => 2
  | some (t, _) =>
    if code = codeConfRej then 2
    else if code = codeConfAck ∨ t.validateNak = false then
      if 6 < (m (bp + 1)).toNat ∨ (m (bp + 1)).toNat ≤ 2 then 2 else (m (bp + 1)).toNat
    else 6

/-- A Configure-Ack, -Nak or -Reject is read inside. -/
structure RcxFits (x : Xcp) (code : Byte) (R : ℕ) (s : PppState) : Prop where
  scan : Scan s.inbuffer R s.mlen.toNat s.bp
  reads : ∀ bp ∈ s.options.1, bp + rcxReads x code s.inbuffer bp + inOfs ≤ R

/-! ## What is read -/

variable {x : Xcp} {m : ℕ → Byte} {R bp i rlen turns : ℕ} {s s₀ t : PppState} {code : Byte}

@[simp] theorem eval_get16R : eval m (get16R i) = get16 m i := rfl

@[simp] theorem eval_get32R : eval m (get32R i) = get32 m i := rfl

theorem within_get16R : Within (· < R) m (get16R i) ↔ i + 1 < R := by
  unfold get16R
  rw [within_bind, within_bind, within_cell, within_cell, and_iff_left within_pure]
  omega

theorem gives_get16R {P : ℕ → Prop} {γ : Type} {f : Word → Reads Byte (Option γ)} {c : γ} :
    Gives P m (get16R i >>= f) c ↔ Within P m (get16R i) ∧ Gives P m (f (get16 m i)) c := gives_bind

theorem within_get32R : Within (· < R) m (get32R i) ↔ i + 3 < R := by
  unfold get32R
  rw [within_bind, within_bind, within_bind, within_bind, within_cell, within_cell, within_cell, within_cell,
    and_iff_left within_pure]
  omega

theorem gives_inCell {P : ℕ → Prop} {γ : Type} {f : Byte → Reads Byte (Option γ)} {c : γ} :
    Gives P m (inCell i >>= f) c ↔ P (i + inOfs) ∧ Gives P m (f (frameData m i)) c := gives_cell

theorem within_inCells {n : ℕ} : Within (· < R) m (inCells i n) ↔ (0 < n → i + inOfs + n ≤ R) := within_cells_lt

@[simp] theorem eval_inCells {n : ℕ} : eval m (inCells i n) = slice (frameData m) i n := by
  unfold inCells
  rw [eval_cells]
  exact slice_congr fun k _ => congrArg m (by omega)

/-! ## Building a reply -/

/-- What was written is inside. -/
def Room (s : PppState) : Prop := s.parseState = .psOK ∨ s.up ≤ pppMru

theorem gives_inRoom {P : ℕ → Prop} : Gives P m (pure (inRoom s)) t ↔ s.up ≤ pppMru ∧ s = t := by
  unfold inRoom
  split_ifs with h
  · rw [gives_pure, and_iff_right h]
  · exact iff_of_false not_gives_none fun ht => h ht.1

/-- A reply is started. -/
def startReply (x : Xcp) (code : Byte) (st : ParseState) (s : PppState) : PppState :=
  if s.parseState ≠ st then { codeReply x code s with up := 6, parseState := st } else s

theorem eval_startReplyR {st : ParseState} (hin : s.inbuffer = frameData m) :
    eval m (startReplyR x code st s) = startReply x code st s := by
  unfold startReplyR startReply codeReply
  rw [hin, ite_not]
  split_ifs <;> rfl

theorem within_startReplyR {st : ParseState} (hid : 3 + inOfs < R) :
    Within (· < R) m (startReplyR x code st s) := by
  unfold startReplyR
  split_ifs
  · exact within_pure
  · exact within_bind.mpr ⟨within_cell.mpr hid, within_pure⟩

theorem put_slice (out : ℕ → Byte) (d n : ℕ) : put out d (slice m i n) = blit out d m i n := by
  funext k
  by_cases hlt : k < d
  · rw [put_of_lt hlt, blit_of_lt hlt]
  by_cases hge : d + n ≤ k
  · rw [put_of_ge (by rw [length_slice]; exact hge), blit_of_ge hge]
  · obtain ⟨j, rfl⟩ := Nat.exists_eq_add_of_le (not_lt.mp hlt)
    have hj : j < (slice m i n).length := by rw [length_slice]; omega
    rw [put_of_mem hj, blit_of_mem (by omega) (by omega), Nat.add_sub_cancel_left]
    simp [slice]

/-- **`set_reject`** reads the option and writes it behind the others. -/
theorem gives_setRejectR (hin : s.inbuffer = frameData m) (hid : 3 + inOfs < R) (hbad : s.parseState ≠ .psBad) :
    Gives (· < R) m (setRejectR x bp s) t ↔ bp + optionLength s.inbuffer bp + inOfs ≤ R ∧
      (setReject x bp s).up ≤ pppMru ∧ setReject x bp s = t := by
  have hmodel : setReject x bp s =
      { startReply x codeConfRej .psRej s with
        outbuffer := Function.update (blit (startReply x codeConfRej .psRej s).outbuffer
          (startReply x codeConfRej .psRej s).up (frameData m) bp (optionLength s.inbuffer bp))
          ((startReply x codeConfRej .psRej s).up + 1) (BitVec.ofNat 8 (optionLength s.inbuffer bp))
        up := (startReply x codeConfRej .psRej s).up + optionLength s.inbuffer bp } := by
    unfold setReject
    rw [if_neg hbad, ← hin]
    unfold startReply
    split_ifs <;> rfl
  have h2 : 2 ≤ optionLength s.inbuffer bp := le_max_left _ _
  unfold setRejectR
  rw [if_neg hbad, gives_bind, eval_startReplyR hin, and_iff_right (within_startReplyR hid), gives_inCell]
  simp only [gives_bind, eval_inCells, within_inCells, gives_inRoom, put_slice]
  rw [hmodel]
  unfold optionLength at *
  rw [hin] at *
  rw [← and_assoc]
  refine and_congr_left fun _ => ?_
  omega

/-- **`set_nak`** reads the data and writes it behind the others. -/
theorem gives_setNakR {type : Byte} {data : Reads Byte (List Byte)} (hin : s.inbuffer = frameData m)
    (hid : 3 + inOfs < R) (hbad : s.parseState ≠ .psBad) (hrej : s.parseState ≠ .psRej) :
    Gives (· < R) m (setNakR x type data s) t ↔ Within (· < R) m data ∧
      (setNak x type (eval m data) s).up ≤ pppMru ∧ setNak x type (eval m data) s = t := by
  have hneg : ¬ (s.parseState = .psBad ∨ s.parseState = .psRej) := not_or.mpr ⟨hbad, hrej⟩
  unfold setNakR setNak
  rw [if_neg hneg, if_neg hneg, gives_bind, eval_startReplyR hin, and_iff_right (within_startReplyR hid), gives_bind,
    gives_inRoom]
  rfl

theorem room_setReject (hbad : s.parseState ≠ .psBad) : Room (setReject x bp s) ↔ (setReject x bp s).up ≤ pppMru := by
  have hst : (setReject x bp s).parseState = .psRej := by
    unfold setReject
    rw [if_neg hbad]
    by_cases h : s.parseState = .psRej
    · simp [h]
    · simp [h]
  unfold Room
  rw [hst]
  simp

/-- While options are rejected there is no Nak. -/
theorem gives_nak {type : Byte} {data : Reads Byte (List Byte)} (hin : s.inbuffer = frameData m)
    (hid : 3 + inOfs < R) (hbad : s.parseState ≠ .psBad) (hroom : Room s) :
    Gives (· < R) m (setNakR x type data s) t ↔ (s.parseState ≠ .psRej → Within (· < R) m data) ∧
      Room (setNak x type (eval m data) s) ∧ setNak x type (eval m data) s = t := by
  by_cases hrej : s.parseState = .psRej
  · have hset : setNak x type (eval m data) s = s := if_pos (.inr hrej)
    rw [hset, setNakR, if_pos (.inr hrej), gives_pure, and_iff_right fun h => absurd hrej h, and_iff_right hroom]
  · have hst : (setNak x type (eval m data) s).parseState = .psNak := by
      unfold setNak
      rw [if_neg (not_or.mpr ⟨hbad, hrej⟩)]
      by_cases h : s.parseState = .psNak
      · simp [h]
      · simp [h]
    have hroom' : Room (setNak x type (eval m data) s) ↔ (setNak x type (eval m data) s).up ≤ pppMru := by
      unfold Room
      rw [hst]
      simp
    rw [hroom', gives_setNakR hin hid hbad hrej, forall_prop_of_true hrej]

/-! ## The turns -/

/-- **One turn of `validate_request`.** -/
theorem gives_checkOptionR (hin : s.inbuffer = frameData m) (hid : 3 + inOfs < R) (hbad : s.parseState ≠ .psBad)
    (hroom : Room s) : Gives (· < R) m (checkOptionR x bp s) t ↔
      bp + requestReads x s.inbuffer (s.parseState = .psRej) bp + inOfs ≤ R ∧ Room (checkOption x s bp) ∧
        checkOption x s bp = t := by
  unfold checkOptionR requestReads checkOption
  rw [gives_inCell, gives_inCell, ← hin]
  cases hf : findType x (s.inbuffer bp) with
  | none =>
    have h2 : 2 ≤ optionLength s.inbuffer bp := le_max_left _ _
    simp only
    rw [gives_setRejectR hin hid hbad, room_setReject hbad, ← and_assoc, ← and_assoc]
    refine and_congr_left fun _ => ?_
    omega
  | some r =>
    obtain ⟨ty, j⟩ := r
    obtain ⟨hmin, hmax⟩ := findType_some hf
    have hfirst (n : ℕ) (hn : 2 ≤ n) {p : Prop} : (bp + inOfs < R ∧ bp + 1 + inOfs < R ∧
        (s.parseState ≠ .psRej → 0 < n - 2 → bp + 2 + inOfs + (n - 2) ≤ R) ∧ p) ↔
          bp + (if s.parseState = .psRej then 2 else n) + inOfs ≤ R ∧ p := by
      rw [← and_assoc, ← and_assoc]
      refine and_congr_left fun _ => ?_
      split_ifs with hrej
      · simp only [hrej, ne_eq, not_true_eq_false, false_imp_iff, and_true]
        omega
      · simp only [hrej, ne_eq, not_false_eq_true, true_imp_iff]
        omega
    simp only
    by_cases hlt : (s.inbuffer (bp + 1)).toNat < ty.minlen
    · rw [if_pos hlt, if_pos hlt, if_pos hlt, gives_nak hin hid hbad hroom, within_inCells, eval_inCells, ← hin]
      exact hfirst ty.minlen (by omega)
    rw [if_neg hlt, if_neg hlt, if_neg hlt]
    by_cases hgt : ty.maxlen < (s.inbuffer (bp + 1)).toNat
    · rw [if_pos hgt, if_pos hgt, if_pos hgt, gives_nak hin hid hbad hroom, within_inCells, eval_inCells, ← hin]
      exact hfirst ty.maxlen (by omega)
    rw [if_neg hgt, if_neg hgt, if_neg hgt]
    by_cases hval : ty.validateReq
    · have haddr : get32 m (bp + 2 + inOfs) = get32 s.inbuffer (bp + 2) := by
        rw [hin]
        rfl
      rw [if_pos hval, if_pos hval, if_pos hval, ipcpAddrReqR, gives_bind, within_get32R, eval_get32R, haddr, ipcpAddrReq]
      split_ifs
      · rw [gives_pure, and_iff_right hroom, ← and_assoc, ← and_assoc]
        refine and_congr_left fun _ => ?_
        omega
      · rw [gives_nak hin hid hbad hroom, and_iff_right fun _ => within_pure, eval_pure, ← and_assoc, ← and_assoc]
        refine and_congr_left fun _ => ?_
        omega
    · rw [if_neg hval, if_neg hval, if_neg hval, gives_pure, and_iff_right hroom, ← and_assoc]
      refine and_congr_left fun _ => ?_
      omega

theorem within_valueByteR {len k : ℕ} {v : Dword} :
    Within (· < R) m (valueByteR len bp k v) ↔ (k < len → bp + k + inOfs < R) := by
  unfold valueByteR
  split_ifs with h
  · rw [within_bind, and_iff_left within_pure, forall_prop_of_true h]
    exact within_cell
  · exact iff_of_true within_pure fun hk => absurd hk h

theorem within_optionValueR {len : ℕ} (hlo : 2 < len) (hhi : len ≤ 6) :
    Within (· < R) m (optionValueR len bp) ↔ bp + len + inOfs ≤ R := by
  unfold optionValueR inCell
  rw [within_bind, within_bind, within_bind, within_cell, within_valueByteR, within_valueByteR, within_valueByteR]
  omega

theorem eval_optionValueR :
    eval m (optionValueR (frameData m (bp + 1)).toNat bp) = optionValue (frameData m) bp := by
  have hbyte (len k : ℕ) (v : Dword) : eval m (valueByteR len bp k v) =
      if k < len then (v <<< 8) + (frameData m (bp + k)).setWidth 32 else v := by
    unfold valueByteR
    split_ifs <;> rfl
  unfold optionValueR optionValue
  rw [eval_bind, eval_bind, eval_bind, hbyte, hbyte, hbyte]
  rfl

/-- **One turn of `process_rcx`.** -/
theorem gives_processOptionR (hin : s.inbuffer = frameData m) : Gives (· < R) m (processOptionR x code bp s) t ↔
    bp + rcxReads x code s.inbuffer bp + inOfs ≤ R ∧ processOption x code s bp = t := by
  have hhead {k : ℕ} {p q : Prop} (hk : q ↔ bp + k + inOfs ≤ R) (h2 : 2 ≤ k) :
      (bp + inOfs < R ∧ bp + 1 + inOfs < R ∧ q ∧ p) ↔ bp + k + inOfs ≤ R ∧ p := by
    rw [← and_assoc, ← and_assoc, hk]
    refine and_congr_left fun _ => ?_
    omega
  have hplain {p : Prop} : (bp + inOfs < R ∧ bp + 1 + inOfs < R ∧ p) ↔ bp + 2 + inOfs ≤ R ∧ p := by
    rw [← and_assoc]
    refine and_congr_left fun _ => ?_
    omega
  unfold processOptionR rcxReads processOption
  rw [gives_inCell, gives_inCell, ← hin]
  cases findType x (s.inbuffer bp) with
  | none => exact (and_congr_right fun _ => and_congr_right fun _ => gives_pure).trans hplain
  | some r =>
    obtain ⟨ty, j⟩ := r
    simp only
    by_cases hrej : code = codeConfRej
    · rw [if_pos hrej, if_pos hrej, if_pos hrej, gives_pure]
      exact hplain
    rw [if_neg hrej, if_neg hrej, if_neg hrej]
    by_cases hack : code = codeConfAck ∨ ty.validateNak = false
    · rw [if_pos hack, if_pos hack, if_pos hack]
      by_cases hlen : 6 < (s.inbuffer (bp + 1)).toNat ∨ (s.inbuffer (bp + 1)).toNat ≤ 2
      · rw [if_pos hlen, if_pos hlen, if_pos hlen, gives_pure]
        exact hplain
      · rw [if_neg hlen, if_neg hlen, if_neg hlen, gives_bind, within_optionValueR (by omega) (by omega),
          hin, eval_optionValueR, ← hin]
        exact (and_congr_right fun _ => and_congr_right fun _ => and_congr_right fun _ => gives_pure).trans
          (hhead Iff.rfl (by omega))
    · rw [if_neg hack, if_neg hack, if_neg hack, gives_bind, within_get32R, eval_get32R]
      have hvalue : get32 m (bp + 2 + inOfs) = get32 s.inbuffer (bp + 2) := by
        rw [hin]
        rfl
      rw [hvalue]
      exact (and_congr_right fun _ => and_congr_right fun _ => and_congr_right fun _ => gives_pure).trans
        (hhead (by omega) (by omega))

/-! ## The loop -/

theorem scan_iff (h : 2 ≤ rlen) : Scan m R rlen bp ↔ bp + 1 + inOfs < R ∧
    ((m (bp + 1)).toNat ≤ rlen → Scan m R (rlen - optionLength m bp) (bp + optionLength m bp)) := by
  constructor
  · intro hscan
    cases hscan with
    | short hlt => exact absurd h (not_le.mpr hlt)
    | cut hin hlt => exact ⟨hin, fun hle => absurd hle (not_le.mpr hlt)⟩
    | next hin _ hrest => exact ⟨hin, fun _ => hrest⟩
  · rintro ⟨hin, hrest⟩
    by_cases hle : (m (bp + 1)).toNat ≤ rlen
    · exact .next hin hle (hrest hle)
    · exact .cut hin (not_le.mp hle)

theorem gives_stop {turn : ℕ → PppState → Reads Byte (Option PppState)} {P : ℕ → Prop} {r : PppState × Bool} {b : Bool} :
    Gives P m (pure (some (s, b)) : Reads Byte (Option (PppState × Bool))) r ↔
      Gives P m (foldThen turn [] s) r.1 ∧ b = r.2 := by
  rw [gives_pure, foldThen, gives_pure, Prod.ext_iff]

/-- **The loop over the options** looks at their lengths and does one after the other. -/
theorem gives_optionLoopR {turn : ℕ → PppState → Reads Byte (Option PppState)} {r : PppState × Bool}
    (h : rlen ≤ turns) : Gives (· < R) m (optionLoopR turn turns rlen bp s) r ↔
      Scan (frameData m) R rlen bp ∧
        Gives (· < R) m (foldThen turn (options (frameData m) turns rlen bp).1 s) r.1 ∧
          (options (frameData m) turns rlen bp).2 = r.2 := by
  induction turns generalizing rlen bp s with
  | zero =>
    obtain rfl := Nat.le_zero.mp h
    rw [optionLoopR, if_pos rfl, options, gives_stop, and_iff_right (Scan.short (by decide))]
  | succ turns ih =>
    rw [optionLoopR, options]
    by_cases hzero : rlen = 0
    · rw [if_pos hzero, if_pos hzero, gives_stop, and_iff_right (Scan.short (by omega))]
    rw [if_neg hzero, if_neg hzero]
    by_cases htwo : rlen < 2
    · rw [if_pos htwo, if_pos (.inl htwo), gives_stop, and_iff_right (Scan.short htwo)]
    rw [if_neg htwo, gives_inCell, scan_iff (not_lt.mp htwo), and_assoc]
    refine and_congr_right fun _ => ?_
    by_cases hcut : rlen < (frameData m (bp + 1)).toNat
    · rw [if_pos hcut, if_pos (.inr hcut), gives_stop, and_iff_right fun hle => absurd hle (not_le.mpr hcut)]
    rw [if_neg hcut, if_neg (not_or.mpr ⟨htwo, hcut⟩), forall_prop_of_true (not_lt.mp hcut), gives_andThen]
    simp only
    rw [foldThen, gives_andThen]
    have hrest : rlen - optionLength (frameData m) bp ≤ turns := by
      have h2 : 2 ≤ optionLength (frameData m) bp := le_max_left _ _
      omega
    constructor
    · rintro ⟨u, hturn, hloop⟩
      obtain ⟨hscan, hfold, hb⟩ := (ih hrest).mp hloop
      exact ⟨hscan, ⟨u, hturn, hfold⟩, hb⟩
    · rintro ⟨hscan, ⟨u, hturn, hfold⟩, hb⟩
      exact ⟨u, hturn, (ih hrest).mpr ⟨hscan, hfold, hb⟩⟩

/-! ## A Configure-Request -/

/-- The state in which options were looked at. -/
def lookedAt (x : Xcp) (s₀ : PppState) (qs : List ℕ) : PppState :=
  qs.foldl (checkOption x) { s₀ with parseState := .psOK }

/-- What the options that are rejected add to the reply, and what those with a Nak do. -/
def rejectSize (x : Xcp) (s₀ : PppState) (qs : List ℕ) : ℕ :=
  ((unknown x s₀.inbuffer qs).map (optionLength s₀.inbuffer)).sum
def nakSize (x : Xcp) (s₀ : PppState) (qs : List ℕ) : ℕ := (qs.map (nakLength x s₀)).sum

variable {ps qs : List ℕ}

theorem unknown_eq_nil_iff : unknown x m qs = [] ↔ ∀ bp ∈ qs, (findType x (m bp)).isSome := by
  rw [unknown, List.filter_eq_nil_iff]
  refine forall₂_congr fun bp _ => ?_
  cases findType x (m bp) <;> simp

theorem lookedAt_concat : lookedAt x s₀ (qs ++ [bp]) = checkOption x (lookedAt x s₀ qs) bp := by
  simp [lookedAt, List.foldl_append]

theorem inbuffer_lookedAt : (lookedAt x s₀ qs).inbuffer = s₀.inbuffer := by
  obtain ⟨st, out, up, hs, -⟩ := checkOptions_spec x s₀ qs
  rw [lookedAt, hs]
  rfl

theorem lookedAt_ne_bad : (lookedAt x s₀ qs).parseState ≠ .psBad := by
  obtain ⟨st, out, up, hs, hst⟩ := checkOptions_spec x s₀ qs
  rw [lookedAt, hs]
  rcases hst with ⟨rfl, -⟩ | ⟨rfl, -⟩ | ⟨rfl, -⟩ <;> simp [looking]

/-- Options are rejected from the first one on that is not known. -/
theorem lookedAt_rejecting : (lookedAt x s₀ qs).parseState = .psRej ↔ unknown x s₀.inbuffer qs ≠ [] := by
  obtain ⟨st, out, up, hs, hst⟩ := checkOptions_spec x s₀ qs
  rw [lookedAt, hs]
  rcases hst with ⟨rfl, -, -, hu⟩ | ⟨rfl, hu, -⟩ | ⟨rfl, hu, -⟩ <;> simp [looking, hu]

/-- Then the reply has as many bytes as they have. -/
theorem up_rejecting (hu : unknown x s₀.inbuffer qs ≠ []) : (lookedAt x s₀ qs).up = 6 + rejectSize x s₀ qs := by
  obtain ⟨st, out, up, hs, hst⟩ := checkOptions_spec x s₀ qs
  rcases hst with ⟨-, -, -, hu'⟩ | ⟨-, hu', -⟩ | ⟨rfl, -, hup, -⟩
  · exact absurd hu' hu
  · exact absurd hu' hu
  · rw [lookedAt, hs]
    refine hup.trans ?_
    rw [rejectSize, List.length_flatMap]
    simp only [length_fixedOption]

/-- An option that is known gets a Nak, or it does not. -/
theorem checkOption_known (h : (findType x (s.inbuffer bp)).isSome) :
    nakLength x s bp = 0 ∧ checkOption x s bp = s ∨
      nakLength x s bp = 6 ∧ ∃ type data, data.length = 4 ∧ checkOption x s bp = setNak x type data s := by
  unfold nakLength checkOption
  cases hf : findType x (s.inbuffer bp) with
  | none =>
    rw [hf] at h
    exact absurd h (by decide)
  | some r =>
    obtain ⟨ty, j⟩ := r
    obtain ⟨hmin, hmax⟩ := findType_some hf
    simp only
    by_cases hlt : (s.inbuffer (bp + 1)).toNat < ty.minlen
    · rw [if_pos hlt, if_pos hlt]
      exact .inr ⟨hmin, ty.type, _, by rw [length_slice, hmin], rfl⟩
    rw [if_neg hlt, if_neg hlt]
    by_cases hgt : ty.maxlen < (s.inbuffer (bp + 1)).toNat
    · rw [if_pos hgt, if_pos hgt]
      exact .inr ⟨hmax, ty.type, _, by rw [length_slice, hmax], rfl⟩
    rw [if_neg hgt, if_neg hgt, ipcpAddrReq]
    by_cases hval : ty.validateReq
    · rw [if_pos hval]
      by_cases hgood : get32 s.inbuffer (bp + 2) ≠ ((s.xcp x).opts j).myValue ∧
          get32 s.inbuffer (bp + 2) &&& remoteIpMask = remoteIpBase
      · exact .inl ⟨if_neg fun h => h.2 hgood, if_pos hgood⟩
      · exact .inr ⟨(if_pos ⟨hval, hgood⟩).trans hmin, ty.type, _, rfl, if_neg hgood⟩
    · exact .inl ⟨if_neg fun h => hval h.1, if_neg hval⟩

theorem nakLength_lookedAt : nakLength x (lookedAt x s₀ qs) bp = nakLength x s₀ bp := by
  obtain ⟨st, out, up, hs, -⟩ := checkOptions_spec x s₀ qs
  rw [lookedAt, hs]
  rfl

/-- Before them, the reply has the Naks. -/
theorem up_naking (hu : unknown x s₀.inbuffer qs = []) :
    (lookedAt x s₀ qs).parseState = .psOK ∧ nakSize x s₀ qs = 0 ∨
      (lookedAt x s₀ qs).parseState = .psNak ∧ (lookedAt x s₀ qs).up = 6 + nakSize x s₀ qs := by
  induction qs using List.reverseRecOn with
  | nil => exact .inl ⟨rfl, rfl⟩
  | append_singleton qs bp ih =>
    rw [unknown_eq_nil_iff] at hu ih
    have hsome : (findType x ((lookedAt x s₀ qs).inbuffer bp)).isSome := by
      rw [inbuffer_lookedAt]
      exact hu bp (by simp)
    have hsize : nakSize x s₀ (qs ++ [bp]) = nakSize x s₀ qs + nakLength x s₀ bp := by simp [nakSize]
    rw [lookedAt_concat, hsize, ← nakLength_lookedAt]
    have hprev := ih fun q hq => hu q (List.mem_append_left _ hq)
    rcases checkOption_known hsome with ⟨hlen, hsame⟩ | ⟨hlen, type, data, hdata, hset⟩
    · rw [hlen, hsame, Nat.add_zero]
      exact hprev
    · right
      rw [hlen, hset, setNak]
      rcases hprev with ⟨hst, hnone⟩ | ⟨hst, hup⟩
      · simp [hst, hnone, hdata]
      · simp [hst, hup, hdata]
        omega

/-- Whether the reply is inside, by the options that were looked at. -/
theorem room_lookedAt : Room (lookedAt x s₀ qs) ↔
    (unknown x s₀.inbuffer qs ≠ [] → 6 + rejectSize x s₀ qs ≤ pppMru) ∧
      (unknown x s₀.inbuffer qs = [] → 6 + nakSize x s₀ qs ≤ pppMru) := by
  unfold Room
  by_cases hu : unknown x s₀.inbuffer qs = []
  · rw [and_iff_right fun h => absurd hu h, forall_prop_of_true hu]
    rcases up_naking hu with ⟨hst, hnone⟩ | ⟨hst, hup⟩
    · rw [hst, hnone]
      exact iff_of_true (.inl rfl) (by decide)
    · rw [hst, hup]
      simp
  · rw [and_iff_left fun h => absurd h hu, forall_prop_of_true hu, lookedAt_rejecting.mpr hu, up_rejecting hu]
    simp

/-- **The reply stays inside** if the options that are rejected fit, and those with a Nak before them. -/
theorem room_prefixes : (∀ qs, qs <+: ps → Room (lookedAt x s₀ qs)) ↔
    6 + rejectSize x s₀ ps ≤ pppMru ∧ 6 + nakSize x s₀ (knownFirst x s₀.inbuffer ps) ≤ pppMru := by
  constructor
  · intro h
    constructor
    · by_cases hu : unknown x s₀.inbuffer ps = []
      · rw [rejectSize, hu]
        show 6 + 0 ≤ pppMru
        decide
      · exact (room_lookedAt.mp (h ps (List.prefix_refl ps))).1 hu
    · refine (room_lookedAt.mp (h _ (List.takeWhile_prefix _))).2 (unknown_eq_nil_iff.mpr fun bp hbp => ?_)
      have hknown := List.mem_takeWhile_imp hbp
      exact hknown
  · rintro ⟨hrej, hnak⟩ qs ⟨rs, rfl⟩
    refine room_lookedAt.mpr ⟨fun _ => ?_, fun hu => ?_⟩
    · have hle : rejectSize x s₀ qs ≤ rejectSize x s₀ (qs ++ rs) := by
        simp [rejectSize, unknown_append]
      omega
    · have hle : nakSize x s₀ qs ≤ nakSize x s₀ (knownFirst x s₀.inbuffer (qs ++ rs)) := by
        rw [knownFirst, List.takeWhile_append_of_pos (unknown_eq_nil_iff.mp hu)]
        simp [nakSize]
      omega

/-- **The options of a Configure-Request**, one after the other. -/
theorem gives_checkOptions (hin : s₀.inbuffer = frameData m) (hid : 3 + inOfs < R) (hroom : Room (lookedAt x s₀ qs)) :
    Gives (· < R) m (foldThen (checkOptionR x) ps (lookedAt x s₀ qs)) t ↔
      (∀ rs bp ts, ps = rs ++ bp :: ts →
        bp + requestReads x s₀.inbuffer (unknown x s₀.inbuffer (qs ++ rs) ≠ []) bp + inOfs ≤ R) ∧
      (∀ rs, rs <+: ps → Room (lookedAt x s₀ (qs ++ rs))) ∧ lookedAt x s₀ (qs ++ ps) = t := by
  induction ps generalizing qs with
  | nil =>
    rw [foldThen, gives_pure, List.append_nil, and_iff_right fun rs bp ts h => ?_, and_iff_right fun rs h => ?_]
    · rw [List.prefix_nil.mp h, List.append_nil]
      exact hroom
    · exact absurd h.symm (List.append_ne_nil_of_right_ne_nil rs (List.cons_ne_nil bp ts))
  | cons bp ps ih =>
    have happend (rs : List ℕ) : qs ++ bp :: rs = (qs ++ [bp]) ++ rs := by simp
    rw [foldThen, gives_andThen]
    simp only [gives_checkOptionR ((inbuffer_lookedAt).trans hin) hid lookedAt_ne_bad hroom, inbuffer_lookedAt,
      lookedAt_rejecting]
    rw [← lookedAt_concat]
    constructor
    · rintro ⟨u, ⟨hread, hroom', rfl⟩, hrest⟩
      obtain ⟨hreads, hrooms, ht⟩ := (ih hroom').mp hrest
      refine ⟨fun rs p ts hsplit => ?_, fun rs hpre => ?_, ?_⟩
      · cases rs with
        | nil =>
          obtain ⟨rfl, -⟩ := List.cons.inj hsplit
          simpa only [List.append_nil] using hread
        | cons r rs =>
          obtain ⟨rfl, htail⟩ := List.cons.inj hsplit
          rw [happend]
          exact hreads rs p ts htail
      · cases rs with
        | nil =>
          rw [List.append_nil]
          exact hroom
        | cons r rs =>
          obtain ⟨rfl, htail⟩ := List.cons_prefix_cons.mp hpre
          rw [happend]
          exact hrooms rs htail
      · rw [happend]
        exact ht
    · rintro ⟨hreads, hrooms, ht⟩
      have hroom' : Room (lookedAt x s₀ (qs ++ [bp])) := hrooms [bp] (by simp)
      have hread := hreads [] bp ps rfl
      rw [happend] at ht
      refine ⟨_, ⟨by simpa only [List.append_nil] using hread, hroom', rfl⟩,
        (ih hroom').mpr ⟨fun rs p ts hsplit => ?_, fun rs hpre => ?_, ht⟩⟩
      · rw [← happend]
        exact hreads (bp :: rs) p ts (by rw [hsplit]; rfl)
      · rw [← happend]
        exact hrooms (bp :: rs) (List.cons_prefix_cons.mpr ⟨rfl, hpre⟩)

/-- **`validate_request`.** -/
theorem gives_validateRequestR (hin : s.inbuffer = frameData m) (hid : 3 + inOfs < R) :
    Gives (· < R) m (validateRequestR x s) t ↔ RequestFits x R s ∧ validateRequest x s = t := by
  have hopt : Ppp.options (frameData m) s.mlen.toNat s.mlen.toNat s.bp = s.options := by
    rw [← hin]
    rfl
  have hloop (r : PppState × Bool) := @gives_optionLoopR m R s.bp s.mlen.toNat s.mlen.toNat
    { s with parseState := .psOK } (checkOptionR x) r le_rfl
  have hfold (u : PppState) := @gives_checkOptions x m R s u s.options.1 [] hin hid (.inl rfl)
  have hend : validateRequest x s = endRequest (lookedAt x s s.options.1, s.options.2) := rfl
  rw [hopt, ← hin] at hloop
  rw [validateRequestR, gives_andThen, hend]
  constructor
  · rintro ⟨⟨u, b⟩, hr, ht⟩
    obtain ⟨hscan, hoptions, rfl⟩ := (hloop (u, b)).mp hr
    obtain ⟨hreads, hrooms, rfl⟩ := (hfold u).mp hoptions
    obtain ⟨hrej, hnak⟩ := room_prefixes.mp hrooms
    exact ⟨⟨hscan, hreads, hrej, hnak⟩, gives_pure.mp ht⟩
  · rintro ⟨⟨hscan, hreads, hrej, hnak⟩, ht⟩
    exact ⟨(lookedAt x s s.options.1, s.options.2), (hloop _).mpr ⟨hscan,
      (hfold _).mpr ⟨hreads, room_prefixes.mpr ⟨hrej, hnak⟩, rfl⟩, rfl⟩, gives_pure.mpr ht⟩

theorem inbuffer_modify (f : PppXcp → PppXcp) (s : PppState) : (s.modify x f).inbuffer = s.inbuffer := by
  cases x <;> rfl

theorem inbuffer_processOption (x : Xcp) (code : Byte) (s : PppState) (bp : ℕ) :
    (processOption x code s bp).inbuffer = s.inbuffer := by
  unfold processOption
  cases findType x (s.inbuffer bp) with
  | none => rfl
  | some r =>
    simp only
    split_ifs <;> exact inbuffer_modify _ s

/-- The options of a Configure-Ack, -Nak or -Reject, one after the other. -/
theorem gives_processOptions (hin : s.inbuffer = frameData m) :
    Gives (· < R) m (foldThen (processOptionR x code) ps s) t ↔
      (∀ bp ∈ ps, bp + rcxReads x code s.inbuffer bp + inOfs ≤ R) ∧ ps.foldl (processOption x code) s = t := by
  induction ps generalizing s with
  | nil => simp [foldThen]
  | cons bp ps ih =>
    have hsame := inbuffer_processOption x code s bp
    rw [foldThen, gives_andThen, List.forall_mem_cons, List.foldl_cons]
    simp only [gives_processOptionR hin]
    constructor
    · rintro ⟨u, ⟨hread, rfl⟩, hrest⟩
      obtain ⟨hreads, ht⟩ := (ih (hsame.trans hin)).mp hrest
      rw [hsame] at hreads
      exact ⟨⟨hread, hreads⟩, ht⟩
    · rintro ⟨⟨hread, hreads⟩, ht⟩
      rw [← hsame] at hreads
      exact ⟨_, ⟨hread, rfl⟩, (ih (hsame.trans hin)).mpr ⟨hreads, ht⟩⟩

/-- `process_rcx`. -/
theorem gives_processRcxR (hin : s.inbuffer = frameData m) :
    Gives (· < R) m (processRcxR x code s) t ↔ RcxFits x code R s ∧ processRcx x code s = t := by
  have hopt : Ppp.options (frameData m) s.mlen.toNat s.mlen.toNat s.bp = s.options := by
    rw [← hin]
    rfl
  have hloop (r : PppState × Bool) := @gives_optionLoopR m R s.bp s.mlen.toNat s.mlen.toNat s (processOptionR x code) r le_rfl
  rw [hopt, ← hin] at hloop
  rw [processRcxR, gives_andThen, processRcx]
  constructor
  · rintro ⟨⟨u, b⟩, hr, ht⟩
    obtain ⟨hscan, hoptions, -⟩ := (hloop (u, b)).mp hr
    obtain ⟨hreads, rfl⟩ := (gives_processOptions hin).mp hoptions
    exact ⟨⟨hscan, hreads⟩, gives_pure.mp ht⟩
  · rintro ⟨⟨hscan, hreads⟩, ht⟩
    exact ⟨(_, s.options.2), (hloop _).mpr ⟨hscan, (gives_processOptions hin).mpr ⟨hreads, rfl⟩, rfl⟩,
      gives_pure.mpr ht⟩

end Watt32.Ppp
