import Watt32.Ppp.Automata

/-!
# What `validate_request` leaves in the buffer

* `optionAt`, `fixedOption`: an option as it was received, and as `set_reject` copies it.
* `Rejecting`, `Naking`: a Configure-Reject or a Configure-Nak that is being built.
* **`checkOptions_spec`**: what the loop leaves; **`validateRequest_cases`**: what the function does.
-/

namespace Watt32.Ppp

open Mem

/-! ## Options -/

/-- How much of the packet an option takes. -/
def optionLength (m : ℕ → Byte) (bp : ℕ) : ℕ := max 2 (m (bp + 1)).toNat

/-- An option as it was received. -/
def optionAt (m : ℕ → Byte) (bp : ℕ) : List Byte := slice m bp (optionLength m bp)

/-- An option as `set_reject` copies it, with a length that is not too short. -/
def fixedOption (m : ℕ → Byte) (bp : ℕ) : List Byte :=
  m bp :: BitVec.ofNat 8 (optionLength m bp) :: slice m (bp + 2) (optionLength m bp - 2)

/-- The options that are not known. -/
def unknown (x : Xcp) (m : ℕ → Byte) (ps : List ℕ) : List ℕ := ps.filter fun bp => (findType x (m bp)).isNone

variable {x : Xcp} {m out : ℕ → Byte} {bp up : ℕ} {ps : List ℕ} {s s₀ : PppState}

theorem length_fixedOption : (fixedOption m bp).length = optionLength m bp := by
  have h : 2 ≤ optionLength m bp := le_max_left _ _
  simp only [fixedOption, List.length_cons, length_slice]
  omega

theorem length_optionAt : (optionAt m bp).length = optionLength m bp := length_slice

/-- They are the same where the length is not too short. -/
theorem fixedOption_eq_iff : fixedOption m bp = optionAt m bp ↔ 2 ≤ (m (bp + 1)).toNat := by
  have h2 : 2 ≤ optionLength m bp := le_max_left _ _
  obtain ⟨k, hk⟩ : ∃ k, optionLength m bp = 2 + k := ⟨_, (Nat.add_sub_cancel' h2).symm⟩
  have hat : optionAt m bp = m bp :: m (bp + 1) :: slice m (bp + 2) (optionLength m bp - 2) := by
    rw [optionAt, hk, slice_add, Nat.add_sub_cancel_left]
    rfl
  rw [hat, fixedOption, List.cons_inj_right, List.cons.injEq, and_iff_left rfl]
  have hlt : (m (bp + 1)).toNat < 256 := (m (bp + 1)).isLt
  rw [← BitVec.toNat_inj, BitVec.toNat_ofNat, optionLength]
  omega

/-- The supported types are the one of IPCP. -/
theorem findType_some {b : Byte} {t : XcpType} {i : ℕ} (h : findType x b = some (t, i)) :
    t.minlen = 6 ∧ t.maxlen = 6 := by
  have hmem : (t, i) ∈ x.types.zipIdx := List.mem_of_find?_eq_some h
  cases x with
  | lcp => simp [Xcp.types] at hmem
  | ipcp =>
    obtain ⟨rfl, -⟩ : t = _ ∧ i = 0 := by simpa [Xcp.types] using hmem
    exact ⟨rfl, rfl⟩

@[simp] theorem length_header (code ident : Byte) : (header x code ident).length = 6 := rfl

/-! ## Building -/

/-- A Configure-Reject of the options that are not known. -/
def Rejecting (x : Xcp) (m : ℕ → Byte) (ps : List ℕ) (out : ℕ → Byte) (up : ℕ) : Prop :=
  unknown x m ps ≠ [] ∧ up = 6 + ((unknown x m ps).flatMap (fixedOption m)).length ∧
    slice out 0 up = header x codeConfRej (m 3) ++ (unknown x m ps).flatMap (fixedOption m)

/-- A Configure-Nak: each option in it takes six bytes. -/
def Naking (x : Xcp) (m : ℕ → Byte) (ps : List ℕ) (out : ℕ → Byte) (up : ℕ) : Prop :=
  unknown x m ps = [] ∧ slice out 0 6 = header x codeConfNak (m 3) ∧ ∃ k, up = 6 + 6 * (k + 1)

theorem slice_succ_succ (m : ℕ → Byte) (d k : ℕ) : slice m d (2 + k) = m d :: m (d + 1) :: slice m (d + 2) k := by
  rw [slice_add]
  rfl

/-- One more option is copied. -/
theorem slice_reject : slice (Function.update (blit out up m bp (optionLength m bp)) (up + 1)
    (BitVec.ofNat 8 (optionLength m bp))) 0 (up + optionLength m bp) = slice out 0 up ++ fixedOption m bp := by
  have h2 : 2 ≤ optionLength m bp := le_max_left _ _
  obtain ⟨k, hk⟩ : ∃ k, optionLength m bp = 2 + k := ⟨_, (Nat.add_sub_cancel' h2).symm⟩
  have hlow : slice (Function.update (blit out up m bp (optionLength m bp)) (up + 1)
      (BitVec.ofNat 8 (optionLength m bp))) 0 up = slice out 0 up := by
    refine slice_congr fun i hi => ?_
    rw [Function.update_of_ne (by omega), blit_of_lt (by omega)]
  have hhigh : slice (Function.update (blit out up m bp (optionLength m bp)) (up + 1)
      (BitVec.ofNat 8 (optionLength m bp))) up (optionLength m bp) = fixedOption m bp := by
    rw [fixedOption, hk, slice_succ_succ, Nat.add_sub_cancel_left, Function.update_self,
      Function.update_of_ne (by omega), blit_of_mem le_rfl (by omega), Nat.sub_self, Nat.add_zero]
    congr 2
    refine slice_congr fun i hi => ?_
    rw [Function.update_of_ne (by omega), blit_of_mem (by omega) (by omega)]
    congr 1
    omega
  rw [slice_add, hlow, Nat.zero_add, hhigh]

/-- A state in which a request is looked at: nothing but the buffer changes. -/
def looking (s₀ : PppState) (st : ParseState) (out : ℕ → Byte) (up : ℕ) : PppState :=
  { s₀ with parseState := st, outbuffer := out, up := up }

/-- What the loop has made of the options so far. -/
def Looked (x : Xcp) (s₀ : PppState) (ps : List ℕ) (s : PppState) : Prop :=
  ∃ st out up, s = looking s₀ st out up ∧
    (st = .psOK ∧ out = s₀.outbuffer ∧ up = s₀.up ∧ unknown x s₀.inbuffer ps = [] ∨
      st = .psNak ∧ Naking x s₀.inbuffer ps out up ∨ st = .psRej ∧ Rejecting x s₀.inbuffer ps out up)

theorem unknown_append (ps qs : List ℕ) : unknown x m (ps ++ qs) = unknown x m ps ++ unknown x m qs :=
  List.filter_append ..

/-- The first option that is not known starts a Configure-Reject, each one is added to it. -/
theorem rejecting_append (hbp : findType x (m bp) = none)
    (h : slice out 0 up = header x codeConfRej (m 3) ++ (unknown x m ps).flatMap (fixedOption m))
    (hup : up = 6 + ((unknown x m ps).flatMap (fixedOption m)).length) :
    Rejecting x m (ps ++ [bp]) (Function.update (blit out up m bp (optionLength m bp)) (up + 1)
      (BitVec.ofNat 8 (optionLength m bp))) (up + optionLength m bp) := by
  have hu : unknown x m (ps ++ [bp]) = unknown x m ps ++ [bp] := by
    rw [unknown_append]
    simp [unknown, hbp]
  refine ⟨by rw [hu]; simp, ?_, ?_⟩
  · rw [hu, List.flatMap_append, List.length_append, List.flatMap_singleton, length_fixedOption, hup]
    omega
  · rw [slice_reject, h, hu, List.flatMap_append, List.flatMap_singleton, List.append_assoc]

/-- An option that is not known is rejected. -/
theorem looked_setReject (h : Looked x s₀ ps s) (hbp : findType x (s₀.inbuffer bp) = none) :
    Looked x s₀ (ps ++ [bp]) (setReject x bp s) := by
  obtain ⟨st, out, up, rfl, hst⟩ := h
  have hfresh (hu : unknown x s₀.inbuffer ps = []) :=
    @rejecting_append x s₀.inbuffer (put out 0 (header x codeConfRej (s₀.inbuffer 3))) bp 6 ps hbp
      (by rw [hu, List.flatMap_nil, List.append_nil]; exact slice_put) (by rw [hu]; rfl)
  rcases hst with ⟨rfl, rfl, rfl, hu⟩ | ⟨rfl, hu, -⟩ | ⟨rfl, -, hup, hout⟩
  · exact ⟨.psRej, _, _, rfl, .inr (.inr ⟨rfl, hfresh hu⟩)⟩
  · exact ⟨.psRej, _, _, rfl, .inr (.inr ⟨rfl, hfresh hu⟩)⟩
  · exact ⟨.psRej, _, _, rfl, .inr (.inr ⟨rfl, rejecting_append hbp hout hup⟩)⟩

/-- An option that is known is not, but there may be a Nak for it. -/
theorem looked_setNak (type : Byte) {data : List Byte} (hd : data.length = 4) (h : Looked x s₀ ps s)
    (hbp : (findType x (s₀.inbuffer bp)).isSome) : Looked x s₀ (ps ++ [bp]) (setNak x type data s) := by
  have hu : unknown x s₀.inbuffer (ps ++ [bp]) = unknown x s₀.inbuffer ps := by
    rw [unknown_append]
    simp [unknown, Option.isNone_eq_false_iff.mpr hbp]
  obtain ⟨st, out, up, rfl, hst⟩ := h
  rcases hst with ⟨rfl, rfl, rfl, hn⟩ | ⟨rfl, hn, hout, k, hup⟩ | ⟨rfl, hne, hup, hout⟩
  · have hfirst : setNak x type data (looking s₀ .psOK s₀.outbuffer s₀.up) =
        looking s₀ .psNak (put (put s₀.outbuffer 0 (header x codeConfNak (s₀.inbuffer 3))) 6
          ([type, BitVec.ofNat 8 (data.length + 2)] ++ data)) (6 + (data.length + 2)) := rfl
    refine ⟨.psNak, _, _, hfirst, .inr (.inl ⟨rfl, hu.trans hn, ?_, 0, by rw [hd]⟩)⟩
    exact (slice_put_disjoint (.inl le_rfl)).trans slice_put
  · have hnext : setNak x type data (looking s₀ .psNak out up) =
        looking s₀ .psNak (put out up ([type, BitVec.ofNat 8 (data.length + 2)] ++ data))
          (up + (data.length + 2)) := rfl
    refine ⟨.psNak, _, _, hnext, .inr (.inl ⟨rfl, hu.trans hn, ?_, k + 1, by rw [hd]; omega⟩)⟩
    exact (slice_put_disjoint (.inl (by omega))).trans hout
  · refine ⟨.psRej, out, up, rfl, .inr (.inr ⟨rfl, ?_⟩)⟩
    rw [Rejecting, hu]
    exact ⟨hne, hup, hout⟩

theorem looked_same (h : Looked x s₀ ps s) (hbp : (findType x (s₀.inbuffer bp)).isSome) :
    Looked x s₀ (ps ++ [bp]) s := by
  have hu : unknown x s₀.inbuffer (ps ++ [bp]) = unknown x s₀.inbuffer ps := by
    rw [unknown_append]
    simp [unknown, Option.isNone_eq_false_iff.mpr hbp]
  unfold Looked Naking Rejecting
  rw [hu]
  exact h

/-- One turn of the loop. -/
theorem looked_checkOption (bp : ℕ) (h : Looked x s₀ ps s) : Looked x s₀ (ps ++ [bp]) (checkOption x s bp) := by
  have hin : s.inbuffer = s₀.inbuffer := by
    obtain ⟨st, out, up, rfl, -⟩ := h
    rfl
  unfold checkOption
  rw [hin]
  cases hf : findType x (s₀.inbuffer bp) with
  | none => exact looked_setReject h hf
  | some p =>
    obtain ⟨t, i⟩ := p
    obtain ⟨hmin, hmax⟩ := findType_some hf
    have hsome : (findType x (s₀.inbuffer bp)).isSome := by rw [hf]; rfl
    simp only
    split_ifs
    · exact looked_setNak t.type (by rw [length_slice, hmin]) h hsome
    · exact looked_setNak t.type (by rw [length_slice, hmax]) h hsome
    · unfold ipcpAddrReq
      simp only
      split_ifs
      · exact looked_same h hsome
      · exact looked_setNak t.type rfl h hsome
    · exact looked_same h hsome

/-- **The loop of `validate_request`**: the request is liked as far as it goes, or a Configure-Nak or a
Configure-Reject is being built. -/
theorem checkOptions_spec (x : Xcp) (s₀ : PppState) (ps : List ℕ) :
    Looked x s₀ ps (ps.foldl (checkOption x) { s₀ with parseState := .psOK }) := by
  induction ps using List.reverseRecOn with
  | nil => exact ⟨.psOK, s₀.outbuffer, s₀.up, rfl, .inl ⟨rfl, rfl, rfl, rfl⟩⟩
  | append_singleton ps bp ih =>
    rw [List.foldl_append]
    exact looked_checkOption bp ih

/-! ## The request -/

/-- What `validate_request` does with a request. -/
inductive Validated (x : Xcp) (s : PppState) : PppState → Prop
  /-- It is liked. -/
  | good (hu : unknown x s.inbuffer s.options.1 = []) : Validated x s (looking s .psOK s.outbuffer s.up)
  /-- It breaks off, and no option was complained about before. -/
  | stale (hu : unknown x s.inbuffer s.options.1 = []) : Validated x s (looking s .psBad s.outbuffer s.up)
  /-- There is a Configure-Nak. -/
  | nak (st : ParseState) (out : ℕ → Byte) (k : ℕ) (hst : st ≠ .psOK)
      (hu : unknown x s.inbuffer s.options.1 = []) (h : slice out 0 6 = header x codeConfNak (s.inbuffer 3)) :
      Validated x s (looking s st out (6 + 6 * (k + 1)))
  /-- It breaks off, after options were rejected. -/
  | cut (out : ℕ → Byte) (up : ℕ) (hb : s.options.2 = true) (h : Rejecting x s.inbuffer s.options.1 out up) :
      Validated x s (looking s .psBad out up)
  /-- There is a Configure-Reject, and the length is written where the first option is. -/
  | reject (out : ℕ → Byte) (up : ℕ) (hb : s.options.2 = false)
      (h : Rejecting x s.inbuffer s.options.1 out up) : Validated x s (looking s .psRej (putLength out 6 (up - 4)) up)

theorem validateRequest_cases (x : Xcp) (s : PppState) : Validated x s (validateRequest x s) := by
  obtain ⟨st, out, up, hs, hst⟩ := checkOptions_spec x s s.options.1
  unfold validateRequest
  simp only [hs]
  cases hb : s.options.2 with
  | true =>
    rcases hst with ⟨rfl, rfl, rfl, hu⟩ | ⟨rfl, hu, hout, k, rfl⟩ | ⟨rfl, hr⟩
    · exact .stale hu
    · exact .nak .psBad out k nofun hu hout
    · exact .cut out up hb hr
  | false =>
    rcases hst with ⟨rfl, rfl, rfl, hu⟩ | ⟨rfl, hu, hout, k, rfl⟩ | ⟨rfl, hr⟩
    · exact .good hu
    · exact .nak .psNak _ k nofun hu ((slice_put_disjoint (.inl le_rfl)).trans hout)
    · exact .reject out up hb hr

end Watt32.Ppp
