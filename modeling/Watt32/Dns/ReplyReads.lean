import Watt32.Dns.Cname

/-!
# What `read_response` reads

`unpack_domain` and `read_response` as programs that read the reply.

* `unpackDomainR`; **`eval_unpackDomainR`**: it is `unpack_domain`.
* `answerR`, `recordsR`, `readResponseR`; **`eval_readResponseR`**: it is `read_response`.
-/

namespace Watt32.Dns

open Reads

/-! ## The programs -/

/-- `while ((j & 0xC0) == 0xC0)` of `unpack_domain`. -/
def chaseR (start : ℕ) : (fuel src retval : ℕ) → Reads Byte (Option (ℕ × ℕ))
  | 0, _, _ => pure none
  | fuel + 1, src, retval => do
    let j ← cell src
    if isPointer j then do
      let lo ← cell (src + 1)
      chaseR start fuel ((j.toNat - 0xC0) * 256 + lo.toNat) (if retval = 0 then src - start + 2 else retval)
    else return some (src, retval)

/-- The copy of a label. -/
def copyLabelR (dstSize : ℕ) : (n src : ℕ) → List Byte → Reads Byte (Option (ℕ × List Byte))
  | 0, src, dst => pure (some (src, dst))
  | n + 1, src, dst =>
    if dstSize ≤ dst.length + 1 then pure none
    else do
      let b ← cell src
      copyLabelR dstSize n (src + 1) (dst ++ [b])

/-- The loop over the labels: `*src` is read before it is compared with `src_max`. -/
def labelsR (start : ℕ) (srcMax : ℤ) (dstSize : ℕ) : (fuel : ℕ) → Cursor → Reads Byte (Option Scan)
  | 0, _ => pure none
  | fuel + 1, c => do
    let b ← cell c.src
    if b ≠ 0 ∧ (c.src : ℤ) < srcMax ∧ c.dst.length < dstSize then do
      match ← chaseR start fuel c.src c.retval with
      | none => return none
      | some (src, retval) =>
        let j ← cell src
        match ← copyLabelR dstSize (labelLen j) (src + 1) c.dst with
        | none => return some .munged
        | some (src, dst) => labelsR start srcMax dstSize fuel ⟨src, dst ++ [dot], retval⟩
    else return some (.name c)

/-- `unpack_domain`. -/
def unpackDomainR (start : ℕ) (srcSize : ℤ) (dstSize fuel : ℕ) : Reads Byte (Option (Option Unpacked)) := do
  let s ← labelsR start (start + srcSize) dstSize fuel { src := start }
  return s.map fun
    | .munged => none
    | .name c => some (finish start c)

/-- `intel16 (*(WORD*) p)` and `intel (*(DWORD*) p)`. -/
def be16R (p : ℕ) : Reads Byte Word := do
  let hi ← cell p
  let lo ← cell (p + 1)
  return hi ++ lo

def be32R (p : ℕ) : Reads Byte Dword := do
  let hi ← be16R p
  let lo ← be16R (p + 2)
  return hi ++ lo

/-- `memcpy` of `n` bytes. -/
def sliceR : (p n : ℕ) → Reads Byte (List Byte)
  | _, 0 => pure []
  | p, n + 1 => do
    let b ← cell p
    let l ← sliceR (p + 1) n
    return b :: l

/-- `store_alt_address`. -/
def storeAltAddressR (data idx : ℕ) (isIp6 : Bool) (ans : Answer) : Reads Byte Answer :=
  if maxAddresses ≤ idx then pure ans
  else if isIp6 then do
    let a ← sliceR data 16
    return { ans with domA6list := Function.update ans.domA6list idx a }
  else do
    let a ← sliceR data 4
    return { ans with domA4list := Function.update ans.domA4list idx a }

/-- The address of the record at `rrp`. -/
def addressR (qtype : Word) (rrp : ℕ) : Reads Byte Address :=
  if qtype = dtypeAaaa then do
    let a ← sliceR (rdata rrp) 16
    return .ip6 a
  else do
    let a ← be32R (rdata rrp)
    return .ip4 a

/-- What the loop does with the record at `rrp`. -/
def answerR (qtype : Word) (rrp : ℕ) (numAddr : ℕ) (ans : Answer) : Reads Byte (ℕ × Answer) := do
  let rrType ← be16R rrp
  let rrClass ← be16R (rrp + 2)
  if rrClass = din then
    if rrType = qtype then
      if numAddr = 0 then do
        let a ← addressR qtype rrp
        let t ← be32R (rrp + 4)
        return (1, { ans with addr := some a, domTtl := t, domErrno := dnsSrvOk })
      else do
        let ans ← storeAltAddressR (rdata rrp) (numAddr - 1) (qtype = dtypeAaaa) ans
        return (numAddr + 1, ans)
    else if rrType = dtypeCname ∧ ans.domCname.head? = some 0 then do
      let c ← extractCnameR (rdata rrp) maxHostLen
      return (numAddr, { ans with domCname := c })
    else return (numAddr, ans)
  else return (numAddr, ans)

/-- The loop over the answers. -/
def recordsR (qtype : Word) (fuel : ℕ) :
    (nans p : ℕ) → (len : ℤ) → (numAddr : ℕ) → Answer → Reads Byte (Option (ℕ × Answer))
  | 0, _, _, numAddr, ans => pure (some (numAddr, ans))
  | nans + 1, p, len, numAddr, ans =>
    if 0 < len then do
      match ← unpackDomainR p len domSize fuel with
      | none => return none
      | some none => return some (numAddr, ans)
      | some (some u) =>
        let rrLen ← be16R (p + u.retval + 8)
        let r ← answerR qtype (p + u.retval) numAddr ans
        recordsR qtype fuel nans (p + u.retval + resourceHeadSize + rrLen.toNat)
          (len - (resourceHeadSize + rrLen.toNat : ℕ)) r.1 r.2
    else pure (some (numAddr, ans))

/-- `read_response (q, len, qtype, addr)`. -/
def readResponseR (len : ℤ) (qtype : Word) (fuel : ℕ) (ans : Answer) : Reads Byte (Option (Bool × Answer)) := do
  let nans ← be16R 6
  let flags ← be16R 2
  if flags &&& drcode ≠ 0 then return some (false, { ans with domErrno := (flags &&& drcode).toNat })
  else if nans = 0 ∨ flags &&& dqr = 0 then return some (false, { ans with domErrno := dnsSrvName })
  else
    match ← unpackDomainR headSize (len - headSize) domSize fuel with
    | none => return none
    | some none => return some (false, { ans with domErrno := dnsCliIllResp })
    | some (some u) => do
      let r ← recordsR qtype fuel nans.toNat (headSize + u.retval + 4) (len - headSize) 0
        { ans with domCname := 0 :: ans.domCname.drop 1 }
      return r.map fun (numAddr, ans) =>
        if 0 < numAddr then (true, ans) else (false, { ans with domErrno := dnsSrvName })

variable {mem : ℕ → Byte} {start fuel p src retval dstSize n nans numAddr idx : ℕ} {srcMax srcSize len : ℤ}
  {dst : List Byte} {qtype : Word} {ans : Answer}

theorem eval_chaseR : eval mem (chaseR start fuel src retval) = chase mem start fuel src retval := by
  induction fuel generalizing src retval with
  | zero => rfl
  | succ fuel ih =>
    rw [chaseR, chase, eval_bind, eval_ite, eval_bind, ih]
    rfl

theorem eval_copyLabelR : eval mem (copyLabelR dstSize n src dst) = copyLabel mem dstSize n src dst := by
  induction n generalizing src dst with
  | zero => rfl
  | succ n ih =>
    rw [copyLabelR, copyLabel, eval_ite, eval_bind, ih]
    rfl

theorem eval_labelsR {c : Cursor} : eval mem (labelsR start srcMax dstSize fuel c) =
    labels mem start srcMax dstSize fuel c := by
  induction fuel generalizing c with
  | zero => rfl
  | succ fuel ih =>
    rw [labelsR, labels, eval_bind, eval_ite, eval_bind, eval_chaseR]
    refine if_congr Iff.rfl ?_ rfl
    cases chase mem start fuel c.src c.retval with
    | none => rfl
    | some x =>
      simp only [eval_bind, eval_copyLabelR, eval_cell]
      cases copyLabel mem dstSize (labelLen (mem x.1)) (x.1 + 1) c.dst with
      | none => rfl
      | some y => exact ih

/-- **`unpack_domain`** is the program. -/
theorem eval_unpackDomainR : eval mem (unpackDomainR start srcSize dstSize fuel) =
    unpackDomain mem start srcSize dstSize fuel := by
  unfold unpackDomainR unpackDomain
  rw [eval_bind, eval_labelsR]
  rfl

@[simp] theorem eval_be16R : eval mem (be16R p) = be16 mem p := rfl

@[simp] theorem eval_be32R : eval mem (be32R p) = be32 mem p := rfl

@[simp] theorem eval_sliceR : eval mem (sliceR p n) = Mem.slice mem p n := by
  induction n generalizing p with
  | zero => rfl
  | succ n ih =>
    have hs : Mem.slice mem p (1 + n) = mem p :: Mem.slice mem (p + 1) n := Mem.slice_add
    rw [sliceR, eval_bind, eval_bind, ih, Nat.add_comm n 1, hs]
    rfl

theorem eval_storeAltAddressR {isIp6 : Bool} : eval mem (storeAltAddressR p idx isIp6 ans) =
    storeAltAddress mem p idx isIp6 ans := by
  unfold storeAltAddressR storeAltAddress
  simp only [eval_ite, eval_bind, eval_sliceR, eval_pure]

theorem eval_answerR : eval mem (answerR qtype p numAddr ans) = answer mem qtype p numAddr ans := by
  unfold answerR answer addressR
  simp only [eval_ite, eval_bind, eval_sliceR, eval_pure, eval_be32R, eval_extractCnameR,
    eval_storeAltAddressR, apply_ite Option.some]
  rfl

theorem eval_recordsR : eval mem (recordsR qtype fuel nans p len numAddr ans) =
    records mem qtype fuel nans p len numAddr ans := by
  induction nans generalizing p len numAddr ans with
  | zero => rfl
  | succ nans ih =>
    rw [recordsR, records, eval_ite, eval_bind, eval_unpackDomainR]
    refine if_congr Iff.rfl ?_ rfl
    cases unpackDomain mem p len domSize fuel with
    | none => rfl
    | some r =>
      cases r with
      | none => rfl
      | some u =>
        simp only [eval_bind, eval_be16R, eval_answerR]
        exact ih

/-- **`read_response`** is the program. -/
theorem eval_readResponseR : eval mem (readResponseR len qtype fuel ans) =
    readResponse mem len qtype fuel ans := by
  unfold readResponseR readResponse
  simp only [eval_bind, eval_ite, eval_pure, eval_unpackDomainR]
  by_cases hr : flags mem &&& drcode ≠ 0
  · exact (if_pos (show eval mem (be16R 2) &&& drcode ≠ 0 from hr)).trans (if_pos hr).symm
  · have hrcode : flags mem &&& drcode = 0 := not_not.mp hr
    have hanswers : (eval mem (be16R 6) = 0 ∨ eval mem (be16R 2) &&& dqr = 0) ↔ ¬HasAnswers mem := by
      have hcount : ancount mem ≠ 0 ↔ be16 mem 6 ≠ 0 := by
        simp [ancount, BitVec.toNat_eq]
      rw [HasAnswers, and_iff_right hrcode, hcount, not_and_or, not_not, not_not]
      rfl
    refine (if_neg (show ¬(eval mem (be16R 2) &&& drcode ≠ 0) from hr)).trans ?_
    refine Eq.trans ?_ (if_neg hr).symm
    refine if_congr hanswers rfl ?_
    cases unpackDomain mem headSize (len - headSize) domSize fuel with
    | none => rfl
    | some r =>
      cases r with
      | none => rfl
      | some u =>
        simp only [eval_bind, eval_recordsR]
        rfl

end Watt32.Dns
