import Watt32.Dns.Names

/-!
# The reply of a name server

`read_response` of `pcdns.c`: the question's name, then a loop over the answers; the addresses go to
the caller and to `dom_a4list` or `dom_a6list`, a canonical name to `dom_cname`.

* `extractCname`, `storeAltAddress`, `answer`: what is taken from one record.
* `records`, `readResponse`: the loop and the function.
* `RecordsEnd`: the names the loop comes to.
* `decompression_terminates_iff`: `unpack_domain` and the loop end unless a name they come to is on
  circular pointers.
-/

namespace Watt32.Dns

/-- `MAX_HOSTLEN`. -/
def maxHostLen : ℕ := 80

/-- `MAX_ADDRESSES`. -/
def maxAddresses : ℕ := 10

/-- `RESOURCE_HEAD_SIZE`. -/
def resourceHeadSize : ℕ := 10

/-- `sizeof (struct DNS_head)`: `body` follows. -/
def headSize : ℕ := 12

/-- `DQR` and `DRCODE`. -/
def dqr : Word := 0x8000

def drcode : Word := 0x000F

/-- `DTYPE_A`, `DTYPE_CNAME`, `DTYPE_AAAA` and `DIN`. -/
def dtypeA : Word := 1

def dtypeCname : Word := 5

def dtypeAaaa : Word := 28

def din : Word := 1

/-- `DNS_SRV_OK`, `DNS_SRV_NAME` and `DNS_CLI_ILL_RESP`. -/
def dnsSrvOk : ℕ := 0

def dnsSrvName : ℕ := 3

def dnsCliIllResp : ℕ := 20

/-- `intel16 (*(WORD*) p)`. -/
def be16 (mem : ℕ → Byte) (p : ℕ) : Word := mem p ++ mem (p + 1)

/-- `intel (*(DWORD*) p)`. -/
def be32 (mem : ℕ → Byte) (p : ℕ) : Dword := be16 mem p ++ be16 mem (p + 2)

/-- An address as the caller gets it: in host order, or as it is. -/
inductive Address
  | ip4 (addr : Dword)
  | ip6 (addr : List Byte)
deriving DecidableEq

/-- What `read_response` sets: the caller's `addr` and the globals. The lists of other addresses keep
network order. -/
structure Answer where
  addr : Option Address := none
  domTtl : Dword
  domErrno : ℕ
  domCname : List Byte
  domA4list : ℕ → List Byte
  domA6list : ℕ → List Byte

/-! ## A canonical name -/

/-- `while (count > 0)` of `extract_cname`: it leaves when `dest` is past `end`. -/
def copyCname (mem : ℕ → Byte) (max : ℕ) : (count p : ℕ) → List Byte → ℕ × List Byte
  | 0, p, dest => (p, dest)
  | count + 1, p, dest =>
    if max < dest.length then (p, dest) else copyCname mem max count (p + 1) (dest ++ [mem p])

/-- `((count - 0xC0) << 8) + *p++`: `p` points to `char`, so the low byte is signed. -/
def cnameOfs (mem : ℕ → Byte) (p : ℕ) : Word :=
  ((mem p - 0xC0).setWidth 16 <<< 8) + (mem (p + 1)).signExtend 16

/-- The place of the bytes and their `count` after a pointer at `p`, or without one. -/
def cnameLabel (mem : ℕ → Byte) (p : ℕ) : ℕ × ℕ :=
  if isPointer (mem p) then ((cnameOfs mem p).toNat + 1, (mem (cnameOfs mem p).toNat).toNat)
  else (p + 1, (mem p).toNat)

theorem le_length_copyCname (mem : ℕ → Byte) (max count p : ℕ) (dest : List Byte) :
    dest.length ≤ (copyCname mem max count p dest).2.length := by
  induction count generalizing p dest with
  | zero => exact le_rfl
  | succ count ih =>
    rw [copyCname]
    split_ifs
    · exact le_rfl
    · exact le_trans (by simp) (ih _ _)

/-- `while (dest < end)` of `extract_cname`. -/
def cnameLabels (mem : ℕ → Byte) (max p : ℕ) (dest : List Byte) : List Byte :=
  if dest.length < max then
    if (cnameLabel mem p).2 = 0 then dest
    else
      cnameLabels mem max (copyCname mem max (cnameLabel mem p).2 (cnameLabel mem p).1 dest).1
        ((copyCname mem max (cnameLabel mem p).2 (cnameLabel mem p).1 dest).2 ++ [dot])
  else dest
termination_by max - dest.length
decreasing_by
  have := le_length_copyCname mem max (cnameLabel mem p).2 (cnameLabel mem p).1 dest
  simp only [List.length_append, List.length_singleton]
  omega

/-- `extract_cname (q, src, dest, max)`: what it leaves at `dest`. -/
def extractCname (mem : ℕ → Byte) (src max : ℕ) : List Byte :=
  let dest := cnameLabels mem max src []
  (if dest.getLast? = some dot then dest.dropLast else dest) ++ [0]

/-! ## Records -/

/-- `store_alt_address (data, idx, is_ip6)` with the record's data at `data`. -/
def storeAltAddress (mem : ℕ → Byte) (data idx : ℕ) (isIp6 : Bool) (ans : Answer) : Answer :=
  if maxAddresses ≤ idx then ans
  else if isIp6 then { ans with domA6list := Function.update ans.domA6list idx (Mem.slice mem data 16) }
  else { ans with domA4list := Function.update ans.domA4list idx (Mem.slice mem data 4) }

/-- `rtype`, `rclass`, `ttl`, `rdlength` and `rdata` of the record at `rrp`. -/
def rtype (mem : ℕ → Byte) (rrp : ℕ) : Word := be16 mem rrp

def rclass (mem : ℕ → Byte) (rrp : ℕ) : Word := be16 mem (rrp + 2)

def ttl (mem : ℕ → Byte) (rrp : ℕ) : Dword := be32 mem (rrp + 4)

def rdlength (mem : ℕ → Byte) (rrp : ℕ) : ℕ := (be16 mem (rrp + 8)).toNat

def rdata (rrp : ℕ) : ℕ := rrp + 10

/-- What the loop does with the record at `rrp`; `numAddr` addresses went before. -/
def answer (mem : ℕ → Byte) (qtype : Word) (rrp : ℕ) (numAddr : ℕ) (ans : Answer) : ℕ × Answer :=
  if rclass mem rrp = din then
    if rtype mem rrp = qtype then
      if numAddr = 0 then
        (1, { ans with
          addr := some (if qtype = dtypeAaaa then .ip6 (Mem.slice mem (rdata rrp) 16)
            else .ip4 (be32 mem (rdata rrp)))
          domTtl := ttl mem rrp
          domErrno := dnsSrvOk })
      else
        (numAddr + 1, storeAltAddress mem (rdata rrp) (numAddr - 1) (qtype = dtypeAaaa) ans)
    else if rtype mem rrp = dtypeCname ∧ ans.domCname.head? = some 0 then
      (numAddr, { ans with domCname := extractCname mem (rdata rrp) maxHostLen })
    else (numAddr, ans)
  else (numAddr, ans)

/-- `while (nans-- > 0 && len > 0)`: how many addresses there are, and what is set. -/
def records (mem : ℕ → Byte) (qtype : Word) (fuel : ℕ) :
    (nans p : ℕ) → (len : ℤ) → (numAddr : ℕ) → Answer → Option (ℕ × Answer)
  | 0, _, _, numAddr, ans => some (numAddr, ans)
  | nans + 1, p, len, numAddr, ans =>
    if 0 < len then
      match unpackDomain mem p len domSize fuel with
      | none => none
      | some none => some (numAddr, ans)
      | some (some u) =>
        let rrp := p + u.retval
        let (numAddr, ans) := answer mem qtype rrp numAddr ans
        records mem qtype fuel nans (rrp + resourceHeadSize + rdlength mem rrp)
          (len - (resourceHeadSize + rdlength mem rrp : ℕ)) numAddr ans
    else some (numAddr, ans)

/-- `flags` and `ancount` of the header. -/
def flags (mem : ℕ → Byte) : Word := be16 mem 2

def ancount (mem : ℕ → Byte) : ℕ := (be16 mem 6).toNat

/-- The reply is one with answers: `rcode == DNS_SRV_OK`, `nans` is not 0 and `DQR` is set. -/
def HasAnswers (mem : ℕ → Byte) : Prop :=
  flags mem &&& drcode = 0 ∧ ancount mem ≠ 0 ∧ flags mem &&& dqr ≠ 0

instance {mem : ℕ → Byte} : Decidable (HasAnswers mem) := inferInstanceAs (Decidable (_ ∧ _ ∧ _))

/-- `read_response (q, len, qtype, addr)`: what it returns and sets; `none` is no end in `fuel`
turns of a loop over labels. -/
def readResponse (mem : ℕ → Byte) (len : ℤ) (qtype : Word) (fuel : ℕ) (ans : Answer) :
    Option (Bool × Answer) :=
  if flags mem &&& drcode ≠ 0 then
    some (false, { ans with domErrno := (flags mem &&& drcode).toNat })
  else if ¬ HasAnswers mem then some (false, { ans with domErrno := dnsSrvName })
  else
    match unpackDomain mem headSize (len - headSize) domSize fuel with
    | none => none
    | some none => some (false, { ans with domErrno := dnsCliIllResp })
    | some (some u) =>
      (records mem qtype fuel (ancount mem) (headSize + u.retval + 4) (len - headSize) 0
        { ans with domCname := 0 :: ans.domCname.drop 1 }).map fun (numAddr, ans) =>
          if 0 < numAddr then (true, ans) else (false, { ans with domErrno := dnsSrvName })

/-! ## Termination -/

variable {mem : ℕ → Byte} {qtype : Word} {fuel nans p numAddr : ℕ} {len : ℤ} {ans : Answer}

/-- The names of the `nans` records from `p` on end, as far as the loop comes to them: it stops at a
name that is too long, and else takes the record after it. -/
def RecordsEnd (mem : ℕ → Byte) : (nans p : ℕ) → (len : ℤ) → Prop
  | 0, _, _ => True
  | nans + 1, p, len => 0 < len → NameEnds mem p len domSize ∧
      (¬ TooLong mem p len domSize →
        let rrp := p + nameLen mem p len domSize
        RecordsEnd mem nans (rrp + resourceHeadSize + rdlength mem rrp)
          (len - (resourceHeadSize + rdlength mem rrp : ℕ)))

/-- The names of a reply end: the question's, and those of the records after it. -/
def ResponseEnds (mem : ℕ → Byte) (len : ℤ) : Prop :=
  NameEnds mem headSize (len - headSize) domSize ∧
    (¬ TooLong mem headSize (len - headSize) domSize →
      RecordsEnd mem (ancount mem) (headSize + nameLen mem headSize (len - headSize) domSize + 4)
        (len - headSize))

theorem recordsEnd_of_records {r : ℕ × Answer} (h : records mem qtype fuel nans p len numAddr ans = some r) :
    RecordsEnd mem nans p len := by
  induction nans generalizing p len numAddr ans with
  | zero => trivial
  | succ nans ih =>
    intro hlen
    rw [records, if_pos hlen] at h
    split at h
    · simp at h
    · next hu => exact ⟨nameEnds_of_unpackDomain hu, fun hl => absurd ((unpackDomain_spec hu).1.mp rfl) hl⟩
    · next u hu =>
      refine ⟨nameEnds_of_unpackDomain hu, fun _ => ?_⟩
      rw [← (unpackDomain_spec hu).2 u rfl]
      exact ih h

variable (qtype numAddr ans) in
theorem records_isSome (h : RecordsEnd mem nans p len) (hf : 0x4002 + domSize ≤ fuel) :
    ∃ r, records mem qtype fuel nans p len numAddr ans = some r := by
  induction nans generalizing p len numAddr ans with
  | zero => exact ⟨_, rfl⟩
  | succ nans ih =>
    rw [records]
    split_ifs with hlen
    · obtain ⟨he, hnext⟩ := h hlen
      obtain ⟨r, hr⟩ := unpackDomain_isSome he hf
      have ⟨hlong, hret⟩ := unpackDomain_spec hr
      cases r with
      | none => exact ⟨_, by rw [hr]⟩
      | some u =>
        have hnext := hnext fun hl => by simpa using hlong.mpr hl
        rw [← hret u rfl] at hnext
        simp only [hr]
        exact ih _ _ hnext
    · exact ⟨_, rfl⟩

/-- `read_response` of a reply with answers ends when the names in it do, and only then. -/
theorem readResponse_isSome_iff (ha : HasAnswers mem) :
    (∃ fuel, (readResponse mem len qtype fuel ans).isSome) ↔ ResponseEnds mem len := by
  unfold readResponse
  simp only [ha.1, ha, ne_eq, not_true_eq_false, if_false]
  constructor
  · rintro ⟨fuel, h⟩
    split at h
    · simp at h
    · next hu => exact ⟨nameEnds_of_unpackDomain hu, fun hl => absurd ((unpackDomain_spec hu).1.mp rfl) hl⟩
    · next u hu =>
      refine ⟨nameEnds_of_unpackDomain hu, fun _ => ?_⟩
      rw [Option.isSome_map] at h
      obtain ⟨r, hr⟩ := Option.isSome_iff_exists.mp h
      rw [← (unpackDomain_spec hu).2 u rfl]
      exact recordsEnd_of_records hr
  · rintro ⟨he, hnext⟩
    refine ⟨0x4002 + domSize, ?_⟩
    obtain ⟨r, hr⟩ := unpackDomain_isSome he le_rfl
    have ⟨hlong, hret⟩ := unpackDomain_spec hr
    cases r with
    | none => rw [hr]; rfl
    | some u =>
      have hnext := hnext fun hl => by simpa using hlong.mpr hl
      rw [← hret u rfl] at hnext
      obtain ⟨r, hr'⟩ := records_isSome qtype 0 { ans with domCname := 0 :: ans.domCname.drop 1 } hnext le_rfl
      simp only [hr, hr', Option.map_some, Option.isSome_some]

/-- A reply without answers is not read further. -/
theorem readResponse_no_answers (ha : ¬ HasAnswers mem) : (readResponse mem len qtype 0 ans).isSome := by
  unfold readResponse
  split_ifs <;> rfl

/-- **Decompression.** `unpack_domain` ends when no label of the name is on circular pointers, and
only then; the record loop ends when all names it comes to do. -/
theorem decompression_terminates_iff (mem : ℕ → Byte) :
    (∀ (start : ℕ) (srcSize : ℤ) (dstSize : ℕ),
      (∃ fuel, (unpackDomain mem start srcSize dstSize fuel).isSome) ↔
        NameEnds mem start srcSize dstSize) ∧
    ∀ (len : ℤ) (qtype : Word) (ans : Answer),
      (∃ fuel, (readResponse mem len qtype fuel ans).isSome) ↔
        (HasAnswers mem → ResponseEnds mem len) := by
  refine ⟨fun start srcSize dstSize => ⟨?_, fun h => ?_⟩, fun len qtype ans => ?_⟩
  · rintro ⟨fuel, h⟩
    obtain ⟨r, hr⟩ := Option.isSome_iff_exists.mp h
    exact nameEnds_of_unpackDomain hr
  · obtain ⟨r, hr⟩ := unpackDomain_isSome h le_rfl
    exact ⟨_, by rw [hr]; rfl⟩
  · by_cases ha : HasAnswers mem
    · rw [readResponse_isSome_iff ha]
      exact ⟨fun h _ => h, fun h => h ha⟩
    · exact ⟨fun _ h => absurd h ha, fun _ => ⟨0, readResponse_no_answers ha⟩⟩

/-- A reply with one answer whose question's name is a pointer to itself. -/
def loopReply : ℕ → Byte := Mem.put (fun _ => 0) 2 [0x80, 0, 0, 1, 0, 1, 0, 0, 0, 0, 0xC0, 12]

/-- **The claim fails** on it: neither `unpack_domain` nor `read_response` ends. -/
theorem self_pointer_never_ends :
    (∀ fuel, unpackDomain loopReply headSize 4 domSize fuel = none) ∧
      ∀ fuel ans, readResponse loopReply 16 dtypeA fuel ans = none := by
  have ha : HasAnswers loopReply := by decide
  have hc : Circular loopReply headSize :=
    ⟨0, 1, by decide, by decide, fun k hk => by interval_cases k <;> decide⟩
  have hn : ∀ srcSize : ℤ, 0 < srcSize → ¬ NameEnds loopReply headSize srcSize domSize := by
    intro srcSize hs h
    exact h headSize 0 .first ⟨by decide, by omega, by decide⟩ hc
  constructor
  · intro fuel
    cases hu : unpackDomain loopReply headSize 4 domSize fuel with
    | none => rfl
    | some r => exact absurd (nameEnds_of_unpackDomain hu) (hn 4 (by decide))
  · intro fuel ans
    cases hr : readResponse loopReply 16 dtypeA fuel ans with
    | none => rfl
    | some r =>
      have := (readResponse_isSome_iff ha).mp ⟨fuel, by rw [hr]; rfl⟩
      exact absurd this.1 (hn _ (by decide))

end Watt32.Dns
