import Mathlib.Order.Filter.AtTopBot.Basic
import Watt32.Dns.ReplyReads

/-!
# Where `read_response` reads

The parser compares `src` with the end of the data before a label, after it has read the label's
length; the pointers, the labels' bytes, the heads and the data of the records it does not compare.

* `NameInside`, `RecordsInside`, `ReplyInside`: all that is read of a reply lies in it.
* `within_of_nameInside`, `nameInside_of_within`: so `unpack_domain` reads within it.
* `within_answerR`: what is read of a record.
* **`readResponse_inside_iff`**: the parser reads within the reply, in however many turns, exactly then.
-/

namespace Watt32.Dns

open Reads Filter

variable {mem : ℕ → Byte} {L start fuel p q src retval dstSize n w nans numAddr idx : ℕ}
  {srcMax srcSize len : ℤ} {dst : List Byte} {qtype : Word} {ans : Answer}

/-! ## Names -/

/-- The pointers from `p` on come to `q`. -/
inductive Chain (mem : ℕ → Byte) : ℕ → ℕ → Prop
  | here {p : ℕ} : Chain mem p p
  | there {p q : ℕ} : isPointer (mem p) = true → Chain mem (follow mem p) q → Chain mem p q

/-- The place lies in the reply, and the second byte of a pointer there. -/
def PlaceInside (mem : ℕ → Byte) (L q : ℕ) : Prop := q < L ∧ (isPointer (mem q) = true → q + 1 < L)

theorem Lands.chain (h : Lands mem p q) : Chain mem p q := by
  induction h with
  | here _ => exact .here
  | there hp _ ih => exact .there hp ih

/-- One turn along a chain. -/
theorem within_chaseR_succ : Within (· < L) mem (chaseR start (fuel + 1) p retval) ↔
    p < L ∧ (isPointer (mem p) = true → p + 1 < L ∧ Within (· < L) mem
      (chaseR start fuel (follow mem p) (if retval = 0 then p - start + 2 else retval))) := by
  rw [chaseR, within_bind, within_cell, eval_cell, within_ite, and_iff_left fun _ => within_pure]
  refine and_congr_right fun _ => imp_congr_right fun _ => ?_
  rw [within_bind, within_cell]
  rfl

theorem within_chaseR (h : ∀ q, Chain mem p q → PlaceInside mem L q) :
    Within (· < L) mem (chaseR start fuel p retval) := by
  induction fuel generalizing p retval with
  | zero => exact within_pure
  | succ fuel ih =>
    obtain ⟨hp, hp'⟩ := h p .here
    exact within_chaseR_succ.mpr ⟨hp, fun hptr => ⟨hp' hptr, ih fun q hq => h q (.there hptr hq)⟩⟩

/-- A chain that is followed long enough is read to any of its places. -/
theorem placeInside_of_chaseR
    (h : ∀ᶠ fuel in atTop, ∃ retval, Within (· < L) mem (chaseR start fuel p retval))
    (hq : Chain mem p q) : PlaceInside mem L q := by
  induction hq with
  | here =>
    obtain ⟨fuel, retval, hw⟩ := ((tendsto_add_atTop_nat 1).eventually h).exists
    rw [within_chaseR_succ] at hw
    exact ⟨hw.1, fun hp => (hw.2 hp).1⟩
  | there hp _ ih =>
    refine ih (((tendsto_add_atTop_nat 1).eventually h).mono fun fuel hw => ?_)
    obtain ⟨retval, hw⟩ := hw
    exact ⟨_, ((within_chaseR_succ.mp hw).2 hp).2⟩

theorem within_copyLabelR (hs : src ≤ L) : Within (· < L) mem (copyLabelR dstSize n src dst) ↔
    src + min n (dstSize - 1 - dst.length) ≤ L := by
  induction n generalizing src dst with
  | zero => exact iff_of_true within_pure (by omega)
  | succ n ih =>
    rw [copyLabelR, within_ite]
    by_cases hfull : dstSize ≤ dst.length + 1
    · exact iff_of_true ⟨fun _ => within_pure, fun h => absurd hfull h⟩ (by omega)
    · rw [and_iff_right fun h => absurd h hfull, imp_iff_right hfull, within_bind, within_cell]
      constructor
      · rintro ⟨hlt, hrest⟩
        rw [ih hlt, List.length_append, List.length_singleton] at hrest
        omega
      · intro hle
        have hlt : src < L := by omega
        rw [ih hlt, List.length_append, List.length_singleton]
        omega

/-- What is read of a label or the end of a name at `p`, with `w` bytes written. -/
def NameLabelInside (mem : ℕ → Byte) (L : ℕ) (srcMax : ℤ) (dstSize p w : ℕ) : Prop :=
  p < L ∧ (Opens mem srcMax dstSize p w → (∀ q, Chain mem p q → PlaceInside mem L q) ∧
    ∀ q, Lands mem p q → q + 1 + min (labelLen (mem q)) (dstSize - 1 - w) ≤ L)

/-- What is read of the name at `start` lies in the reply. -/
def NameInside (mem : ℕ → Byte) (L start : ℕ) (srcSize : ℤ) (dstSize : ℕ) : Prop :=
  ∀ p w, Label mem (start + srcSize) dstSize start 0 p w → NameLabelInside mem L (start + srcSize) dstSize p w

/-- One turn of the loop over the labels. -/
theorem within_labelsR_succ {c : Cursor} : Within (· < L) mem (labelsR start srcMax dstSize (fuel + 1) c) ↔
    c.src < L ∧ (Opens mem srcMax dstSize c.src c.dst.length →
      Within (· < L) mem (chaseR start fuel c.src c.retval) ∧
        ∀ q r, chase mem start fuel c.src c.retval = some (q, r) → q < L ∧
          Within (· < L) mem (copyLabelR dstSize (labelLen (mem q)) (q + 1) c.dst) ∧
          (c.dst.length + labelLen (mem q) < dstSize → Within (· < L) mem (labelsR start srcMax dstSize fuel
            ⟨q + 1 + labelLen (mem q), c.dst ++ Mem.slice mem (q + 1) (labelLen (mem q)) ++ [dot], r⟩))) := by
  rw [labelsR, within_bind, within_cell, eval_cell, within_ite, and_iff_left fun _ => within_pure]
  refine and_congr_right fun _ => imp_congr_right fun ho => ?_
  rw [within_bind, eval_chaseR]
  refine and_congr_right fun _ => ?_
  cases chase mem start fuel c.src c.retval with
  | none => exact iff_of_true within_pure fun q r h => by cases h
  | some x =>
    obtain ⟨q, r⟩ := x
    have hcopy := @copyLabel_eq mem _ (labelLen (mem q)) _ (q + 1) ho.2.2
    simp only [within_bind, within_cell, eval_cell, eval_copyLabelR, hcopy, Option.some.injEq, Prod.mk.injEq]
    constructor
    · rintro ⟨hq, hc, hrest⟩ _ _ ⟨rfl, rfl⟩
      refine ⟨hq, hc, fun hfit => ?_⟩
      rwa [if_pos hfit] at hrest
    · intro h
      obtain ⟨hq, hc, hrest⟩ := h q r ⟨rfl, rfl⟩
      refine ⟨hq, hc, ?_⟩
      split_ifs with hfit
      · exact hrest hfit
      · exact within_pure

/-- A loop whose labels lie in the reply reads there. -/
theorem within_labelsR {c : Cursor} (h : ∀ p w, Label mem srcMax dstSize c.src c.dst.length p w →
    NameLabelInside mem L srcMax dstSize p w) : Within (· < L) mem (labelsR start srcMax dstSize fuel c) := by
  induction fuel generalizing c with
  | zero => exact within_pure
  | succ fuel ih =>
    obtain ⟨hsrc, hlabel⟩ := h _ _ .first
    refine within_labelsR_succ.mpr ⟨hsrc, fun ho => ?_⟩
    obtain ⟨hchain, hbytes⟩ := hlabel ho
    refine ⟨within_chaseR hchain, fun q r hc => ?_⟩
    have hl := (chase_eq_some hc).1
    have hq := (hchain q hl.chain).1
    refine ⟨hq, (within_copyLabelR hq).mpr (hbytes q hl), fun hfit => ih fun p w hlab => h p w (.next ho hl hfit ?_)⟩
    simpa [Nat.add_assoc] using hlab

/-- The pointers lead `chase` where they end. -/
theorem chase_of_lands (h : Lands mem p q) (hf : 0x4001 ≤ fuel) :
    ∃ r, chase mem start fuel p retval = some (q, r) := by
  obtain ⟨⟨q', r⟩, hc⟩ := chase_isSome start retval h.not_circular hf
  obtain rfl := h.unique (chase_eq_some hc).1
  exact ⟨r, hc⟩

/-- A loop that goes on long enough reads all of the labels it comes to. -/
theorem nameLabelInside_of_labelsR {w₀ : ℕ} (h : ∀ᶠ fuel in atTop, ∃ dst retval, dst.length = w₀ ∧
      Within (· < L) mem (labelsR start srcMax dstSize fuel ⟨src, dst, retval⟩))
    (hl : Label mem srcMax dstSize src w₀ p w) : NameLabelInside mem L srcMax dstSize p w := by
  induction hl with
  | @first src w₀ =>
    have hturn := (tendsto_add_atTop_nat 1).eventually h
    have hchase (ho : Opens mem srcMax dstSize src w₀) :
        ∀ᶠ fuel in atTop, ∃ retval, Within (· < L) mem (chaseR start fuel src retval) := by
      refine hturn.mono fun fuel hw => ?_
      obtain ⟨dst, retval, hw, hin⟩ := hw
      rw [within_labelsR_succ, hw] at hin
      exact ⟨retval, (hin.2 ho).1⟩
    obtain ⟨fuel, hf, dst, retval, hw, hin⟩ := ((eventually_ge_atTop 0x4001).and hturn).exists
    rw [within_labelsR_succ, hw] at hin
    refine ⟨hin.1, fun ho => ⟨fun q hq => placeInside_of_chaseR (hchase ho) hq, fun q hq => ?_⟩⟩
    obtain ⟨r, hc⟩ : ∃ r, chase mem start fuel src retval = some (q, r) := chase_of_lands hq hf
    obtain ⟨hlt, hcopy, -⟩ := (hin.2 ho).2 q r hc
    rw [within_copyLabelR hlt, hw] at hcopy
    exact hcopy
  | @next src w₀ q _ _ ho hq hfit _ ih =>
    have hturn := (tendsto_add_atTop_nat 1).eventually h
    refine ih (((eventually_ge_atTop 0x4001).and hturn).mono fun fuel hw => ?_)
    obtain ⟨hf, dst, retval, hw, hin⟩ := hw
    rw [within_labelsR_succ, hw] at hin
    obtain ⟨r, hc⟩ : ∃ r, chase mem start fuel src retval = some (q, r) := chase_of_lands hq hf
    exact ⟨_, r, by simp [hw, Nat.add_assoc], ((hin.2 ho).2 _ r hc).2.2 hfit⟩

theorem within_unpackDomainR : Within (· < L) mem (unpackDomainR start srcSize dstSize fuel) ↔
    Within (· < L) mem (labelsR start (start + srcSize) dstSize fuel { src := start }) := by
  unfold unpackDomainR
  rw [within_bind, and_iff_left within_pure]

theorem within_of_nameInside (h : NameInside mem L start srcSize dstSize) :
    Within (· < L) mem (unpackDomainR start srcSize dstSize fuel) :=
  within_unpackDomainR.mpr (within_labelsR h)

theorem nameInside_of_within
    (h : ∀ᶠ fuel in atTop, Within (· < L) mem (unpackDomainR start srcSize dstSize fuel)) :
    NameInside mem L start srcSize dstSize := fun _ _ hl =>
  nameLabelInside_of_labelsR (h.mono fun _ hw => ⟨[], 0, rfl, within_unpackDomainR.mp hw⟩) hl

/-! ## Records -/

/-- The bytes of an address of the asked type. -/
def addrSize (qtype : Word) : ℕ := if qtype = dtypeAaaa then 16 else 4

/-- What is read of the record at `rrp` lies in the reply: its head, and of class IN the address, if it
is stored, or the first canonical name. -/
def RecordInside (mem : ℕ → Byte) (L : ℕ) (qtype : Word) (rrp numAddr : ℕ) (ans : Answer) : Prop :=
  rrp + resourceHeadSize ≤ L ∧ (rclass mem rrp = din →
    (rtype mem rrp = qtype → numAddr ≤ maxAddresses → rdata rrp + addrSize qtype ≤ L) ∧
      (rtype mem rrp ≠ qtype → rtype mem rrp = dtypeCname ∧ ans.domCname.head? = some 0 →
        CnameInside mem L (rdata rrp) maxHostLen))

theorem within_be16R : Within (· < L) mem (be16R p) ↔ p + 1 < L := by
  unfold be16R
  rw [within_bind, within_bind, within_cell, within_cell, and_iff_left within_pure]
  omega

theorem within_be32R : Within (· < L) mem (be32R p) ↔ p + 3 < L := by
  unfold be32R
  rw [within_bind, within_bind, within_be16R, within_be16R, and_iff_left within_pure]
  omega

theorem within_sliceR : Within (· < L) mem (sliceR p n) ↔ (n ≠ 0 → p + n ≤ L) := by
  induction n generalizing p with
  | zero => exact iff_of_true within_pure fun h => absurd rfl h
  | succ n ih =>
    rw [sliceR, within_bind, within_bind, within_cell, and_iff_left within_pure, ih]
    omega

theorem within_addressR : Within (· < L) mem (addressR qtype p) ↔ rdata p + addrSize qtype ≤ L := by
  unfold addressR addrSize
  by_cases h6 : qtype = dtypeAaaa
  · rw [if_pos h6, if_pos h6, within_bind, within_sliceR, and_iff_left within_pure]
    omega
  · rw [if_neg h6, if_neg h6, within_bind, within_be32R, and_iff_left within_pure]
    omega

theorem within_storeAltAddressR : Within (· < L) mem (storeAltAddressR p idx (qtype = dtypeAaaa) ans) ↔
    (idx < maxAddresses → p + addrSize qtype ≤ L) := by
  unfold storeAltAddressR addrSize
  rw [within_ite, and_iff_right fun _ => within_pure, not_le]
  refine imp_congr_right fun _ => ?_
  by_cases h6 : qtype = dtypeAaaa
  · rw [if_pos (decide_eq_true h6), if_pos h6, within_bind, within_sliceR, and_iff_left within_pure]
    omega
  · rw [if_neg (by simpa using h6), if_neg h6, within_bind, within_sliceR, and_iff_left within_pure]
    omega

/-- What is read of a record, with its length. -/
theorem within_answerR : Within (· < L) mem (be16R (p + 8)) ∧ Within (· < L) mem (answerR qtype p numAddr ans) ↔
    RecordInside mem L qtype p numAddr ans := by
  unfold answerR RecordInside
  rw [within_be16R, within_bind, within_bind, within_be16R, within_be16R, eval_be16R, eval_be16R, within_ite,
    and_iff_left fun _ => within_pure, within_ite, within_ite, within_ite, and_iff_left fun _ => within_pure,
    within_bind, within_addressR, within_bind, within_be32R, and_iff_left within_pure, within_bind,
    within_storeAltAddressR, and_iff_left within_pure, within_bind, within_extractCnameR,
    and_iff_left within_pure]
  change _ ∧ _ ∧ _ ∧ (rclass mem p = din → (rtype mem p = qtype → _) ∧ (¬rtype mem p = qtype → _ → _)) ↔ _
  simp only [resourceHeadSize, rdata, maxAddresses]
  constructor
  · rintro ⟨h₁, h₂, h₃, h⟩
    refine ⟨h₁, fun hc => ⟨fun ht hn => ?_, (h hc).2⟩⟩
    by_cases h0 : numAddr = 0
    · exact (((h hc).1 ht).1 h0).1
    · exact ((h hc).1 ht).2 h0 (by omega)
  · rintro ⟨h₁, h⟩
    refine ⟨by omega, by omega, by omega, fun hc => ⟨fun ht => ⟨fun h0 => ?_, fun h0 hidx => ?_⟩, (h hc).2⟩⟩
    · exact ⟨(h hc).1 ht (by omega), by omega⟩
    · exact (h hc).1 ht (by omega)

/-- What is read of the `nans` records from `p` on lies in the reply, as far as the loop comes to them:
it does not come past a name that does not end or is too long. -/
def RecordsInside (mem : ℕ → Byte) (L : ℕ) (qtype : Word) :
    (nans p : ℕ) → (len : ℤ) → (numAddr : ℕ) → Answer → Prop
  | 0, _, _, _, _ => True
  | nans + 1, p, len, numAddr, ans => 0 < len → NameInside mem L p len domSize ∧
      (NameEnds mem p len domSize → ¬TooLong mem p len domSize →
        let rrp := p + nameLen mem p len domSize
        RecordInside mem L qtype rrp numAddr ans ∧
          RecordsInside mem L qtype nans (rrp + resourceHeadSize + rdlength mem rrp)
            (len - (resourceHeadSize + rdlength mem rrp : ℕ)) (answer mem qtype rrp numAddr ans).1
            (answer mem qtype rrp numAddr ans).2)

/-- One turn of the loop over the records. -/
theorem within_recordsR_succ : Within (· < L) mem (recordsR qtype fuel (nans + 1) p len numAddr ans) ↔
    (0 < len → Within (· < L) mem (unpackDomainR p len domSize fuel) ∧
      ∀ u, unpackDomain mem p len domSize fuel = some (some u) →
        RecordInside mem L qtype (p + u.retval) numAddr ans ∧
          Within (· < L) mem (recordsR qtype fuel nans
            (p + u.retval + resourceHeadSize + rdlength mem (p + u.retval))
            (len - (resourceHeadSize + rdlength mem (p + u.retval) : ℕ))
            (answer mem qtype (p + u.retval) numAddr ans).1 (answer mem qtype (p + u.retval) numAddr ans).2)) := by
  rw [recordsR, within_ite, and_iff_left fun _ => within_pure]
  refine imp_congr_right fun _ => ?_
  rw [within_bind, eval_unpackDomainR]
  refine and_congr_right fun _ => ?_
  cases unpackDomain mem p len domSize fuel with
  | none => exact iff_of_true within_pure fun u h => by cases h
  | some r =>
    cases r with
    | none => exact iff_of_true within_pure fun u h => by cases h
    | some u =>
      simp only [within_bind, eval_be16R, eval_answerR, Option.some.injEq, forall_eq', ← within_answerR,
        and_assoc]
      rfl

/-- Whether `unpack_domain` comes to a record behind a name, and to which. -/
theorem unpackDomain_eq_some {u : Unpacked} (h : unpackDomain mem p len domSize fuel = some (some u)) :
    NameEnds mem p len domSize ∧ ¬TooLong mem p len domSize ∧ u.retval = nameLen mem p len domSize :=
  ⟨nameEnds_of_unpackDomain h, fun hl => absurd ((unpackDomain_spec h).1.mpr hl) (by simp),
    (unpackDomain_spec h).2 u rfl⟩

theorem unpackDomain_of_ends (he : NameEnds mem p len domSize) (hl : ¬TooLong mem p len domSize)
    (hf : 0x4002 + domSize ≤ fuel) :
    ∃ u, unpackDomain mem p len domSize fuel = some (some u) ∧ u.retval = nameLen mem p len domSize := by
  obtain ⟨r, hr⟩ := unpackDomain_isSome he hf
  cases r with
  | none => exact absurd ((unpackDomain_spec hr).1.mp rfl) hl
  | some u => exact ⟨u, hr, (unpackDomain_spec hr).2 u rfl⟩

theorem within_of_recordsInside (h : RecordsInside mem L qtype nans p len numAddr ans) :
    Within (· < L) mem (recordsR qtype fuel nans p len numAddr ans) := by
  induction nans generalizing p len numAddr ans with
  | zero => exact within_pure
  | succ nans ih =>
    refine within_recordsR_succ.mpr fun hlen => ⟨within_of_nameInside (h hlen).1, fun u hu => ?_⟩
    obtain ⟨he, hl, hret⟩ := unpackDomain_eq_some hu
    obtain ⟨hrec, hrest⟩ := (h hlen).2 he hl
    rw [hret]
    exact ⟨hrec, ih hrest⟩

theorem recordsInside_of_within
    (h : ∀ᶠ fuel in atTop, Within (· < L) mem (recordsR qtype fuel nans p len numAddr ans)) :
    RecordsInside mem L qtype nans p len numAddr ans := by
  induction nans generalizing p len numAddr ans with
  | zero => trivial
  | succ nans ih =>
    intro hlen
    have hturn := h.mono fun fuel hw => within_recordsR_succ.mp hw hlen
    refine ⟨nameInside_of_within (hturn.mono fun fuel hw => hw.1), fun he hl => ?_⟩
    have hrest := ((eventually_ge_atTop (0x4002 + domSize)).and hturn).mono fun fuel hw => by
      obtain ⟨u, hu, hret⟩ := unpackDomain_of_ends he hl hw.1
      have := hw.2.2 u hu
      rwa [hret] at this
    obtain ⟨fuel, hrec, -⟩ := hrest.exists
    exact ⟨hrec, ih (hrest.mono fun fuel hw => hw.2)⟩

/-! ## The reply -/

/-- What is read of a reply of `L` bytes lies in it. -/
def ReplyInside (mem : ℕ → Byte) (L : ℕ) (qtype : Word) (ans : Answer) : Prop :=
  8 ≤ L ∧ (HasAnswers mem → NameInside mem L headSize (L - headSize) domSize ∧
    (NameEnds mem headSize (L - headSize) domSize → ¬TooLong mem headSize (L - headSize) domSize →
      RecordsInside mem L qtype (ancount mem) (headSize + nameLen mem headSize (L - headSize) domSize + 4)
        (L - headSize) 0 { ans with domCname := 0 :: ans.domCname.drop 1 }))

/-- The two parts of a reply with answers. -/
theorem within_readResponseR : Within (· < L) mem (readResponseR len qtype fuel ans) ↔
    8 ≤ L ∧ (HasAnswers mem → Within (· < L) mem (unpackDomainR headSize (len - headSize) domSize fuel) ∧
      ∀ u, unpackDomain mem headSize (len - headSize) domSize fuel = some (some u) →
        Within (· < L) mem (recordsR qtype fuel (ancount mem) (headSize + u.retval + 4) (len - headSize) 0
          { ans with domCname := 0 :: ans.domCname.drop 1 })) := by
  have hcount : ancount mem ≠ 0 ↔ be16 mem 6 ≠ 0 := by simp [ancount, BitVec.toNat_eq]
  have hanswers : HasAnswers mem ↔
      ¬(eval mem (be16R 2) &&& drcode ≠ 0) ∧ ¬(eval mem (be16R 6) = 0 ∨ eval mem (be16R 2) &&& dqr = 0) := by
    rw [HasAnswers, hcount, not_not, not_or]
    rfl
  unfold readResponseR
  rw [within_bind, within_bind, within_be16R, within_be16R, within_ite, and_iff_right fun _ => within_pure,
    within_ite, and_iff_right fun _ => within_pure, within_bind, eval_unpackDomainR, hanswers, and_imp,
    ← and_assoc]
  refine and_congr (by omega) (imp_congr_right fun _ => imp_congr_right fun _ => and_congr_right fun _ => ?_)
  cases unpackDomain mem headSize (len - headSize) domSize fuel with
  | none => exact iff_of_true within_pure fun u h => by cases h
  | some r =>
    cases r with
    | none => exact iff_of_true within_pure fun u h => by cases h
    | some u =>
      simp only [within_bind, within_pure, and_true, Option.some.injEq, forall_eq']
      rfl

/-- **What the parser reads** lies in the reply, in however many turns, exactly if that of the names
and records it comes to does. -/
theorem readResponse_inside_iff : (∀ fuel, Within (· < L) mem (readResponseR L qtype fuel ans)) ↔
    ReplyInside mem L qtype ans := by
  constructor
  · intro h
    have hturn (fuel : ℕ) := within_readResponseR.mp (h fuel)
    refine ⟨(hturn 0).1, fun ha => ⟨?_, fun he hl => ?_⟩⟩
    · exact nameInside_of_within (.of_forall fun fuel => ((hturn fuel).2 ha).1)
    · refine recordsInside_of_within ((eventually_ge_atTop (0x4002 + domSize)).mono fun fuel hf => ?_)
      obtain ⟨u, hu, hret⟩ := unpackDomain_of_ends he hl hf
      have := ((hturn fuel).2 ha).2 u hu
      rwa [hret] at this
  · rintro ⟨h₁, h⟩ fuel
    refine within_readResponseR.mpr ⟨h₁, fun ha => ⟨within_of_nameInside (h ha).1, fun u hu => ?_⟩⟩
    obtain ⟨he, hl, hret⟩ := unpackDomain_eq_some hu
    rw [hret]
    exact within_of_recordsInside ((h ha).2 he hl)

end Watt32.Dns
