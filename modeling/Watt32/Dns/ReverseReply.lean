import Watt32.Dns.Cname
import Watt32.Dns.Inside

/-!
# Replies to reverse questions

`read_response`, `dns_resource` and `dns_labels` of `udp_rev.c`, as programs that read the response; a name is
expanded by recursion over its pointers, in `fuel` labels at most.

* `NameBuf`: `result` or `dummy`; `dnsLabelsR`, `dnsResourceR`, `readResponseR`: the functions.
* `Bounded`: the program ends, reads the bytes received only, stays inside the arrays, and a name that it returns
  is that of a PTR record.
* `NameAt`: the bytes hold a name; `Sound`: the names that the reply makes the functions expand.
* **`reverse_reply_iff`**: for which replies it is bounded.
-/

namespace Watt32.Dns.Reverse

open Reads

/-! ## The source -/

/-- `DTYPE_PTR`. -/
def dtypePtr : Word := 12

/-- `DNS_CLI_ILL_IDNA`. -/
def dnsCliIllIdna : ℕ := 21

/-- An array of `domSize` characters, and the end of the places that were written in it or in one before it. -/
structure NameBuf where
  cells : ℕ → Byte
  top : ℕ := 0

/-- One character. -/
def NameBuf.set (b : NameBuf) (r : ℕ) (c : Byte) : NameBuf := ⟨Function.update b.cells r c, max b.top (r + 1)⟩

/-- `memset (&result, '\0', sizeof(result))`. -/
def NameBuf.clear (b : NameBuf) : NameBuf := { b with cells := fun i => if i < domSize then 0 else b.cells i }

/-- `p`, `result` and the array it points into. -/
structure Place where
  p : ℕ
  result : ℕ
  buf : NameBuf

/-- `while (count > 0)`: whether the label is complete. -/
def labelBytesR (ep : ℕ) : (count : ℕ) → Place → Reads Byte (Bool × Place)
  | 0, s => pure (true, s)
  | count + 1, s =>
    if s.p ≤ ep then do
      let b ← cell s.p
      labelBytesR ep count ⟨s.p + 1, s.result + 1, s.buf.set s.result b⟩
    else pure (false, s)

/-- `dns_labels`: `p` and the array behind. -/
def dnsLabelsR (ep : ℕ) : (fuel : ℕ) → Place → Reads Byte (Option (ℕ × NameBuf))
  | 0, _ => pure none
  | fuel + 1, s => do
    let count ← cell s.p
    if 0xC0 ≤ count then do
      let lo ← cell (s.p + 1)
      let offset : Word := ((count - 0xC0).setWidth 16 <<< 8) + lo.setWidth 16
      (dnsLabelsR ep fuel { s with p := offset.toNat }).andThen fun r => pure (some (s.p + 2, r.2))
    else if count = 0 then return some (s.p + 1, s.buf)
    else do
      let r ← labelBytesR ep count.toNat { s with p := s.p + 1 }
      if r.1 then
        dnsLabelsR ep fuel
          ⟨r.2.p, r.2.result + 1, (r.2.buf.set r.2.result dot).set (r.2.result + 1) 0⟩
      else return some (r.2.p, r.2.buf)

/-- What is around the function: the stack, `dns_do_idna`, `IDNA_convert_from_ACE` with the size it sets,
the size of `name` and `dom_ttl`. -/
structure Env where
  stack : ℕ → Byte := fun _ => 0
  dnsDoIdna : Bool := false
  idnaConvertFromAce : List Byte → Option (List Byte × ℕ) := fun _ => none
  size : ℕ := 256
  domTtl : Dword := 0

/-- What `dns_resource` leaves: `p`, `result` and `dom_ttl`. -/
structure Resource where
  p : ℕ
  result : NameBuf
  domTtl : Dword

/-- `dns_resource`. -/
def dnsResourceR (env : Env) (reqQtype : Word) (ep fuel p : ℕ) (result : NameBuf) (domTtl : Dword) :
    Reads Byte (Option Resource) :=
  (dnsLabelsR ep fuel ⟨p, 0, { result with cells := env.stack }⟩).andThen fun r => do
    let result := { result with top := r.2.top }
    let qtype ← be16R r.1
    let qclass ← be16R (r.1 + 2)
    let ttl ← be32R (r.1 + 4)
    let reslen ← be16R (r.1 + 8)
    if qclass = din ∧ qtype = reqQtype then
      (dnsLabelsR ep fuel ⟨r.1 + 10, 0, result⟩).andThen fun r => pure (some ⟨r.1, r.2, ttl⟩)
    else return some ⟨r.1 + 10 + reslen.toNat, result, domTtl⟩

/-- `str_lcpy (dst, src, len)`, for `0 < len`. -/
def strLcpy (src : List Byte) (len : ℕ) : List Byte := src.take (len - 1)

/-- `dom_remove_dot`. -/
def domRemoveDot (name : List Byte) : List Byte :=
  if name.getLast? = some dot ∧ 3 ≤ name.length then name.dropLast else name

/-- The string in the array. -/
def NameBuf.string (b : NameBuf) : List Byte := (Mem.slice b.cells 0 domSize).takeWhile (· ≠ 0)

/-- What is done with the text of a name; `none` when it cannot be converted. -/
def hostName (env : Env) (text : List Byte) : Option (List Byte) :=
  if env.dnsDoIdna then (env.idnaConvertFromAce text).map fun r => strLcpy (domRemoveDot r.1) r.2
  else some (strLcpy (domRemoveDot text) env.size)

/-- What `read_response` leaves: its result, `name` when it is TRUE, `dom_errno` and `dom_ttl`; then where the
record with the name begins, and the end of the places written in `result` and `dummy`. -/
structure Outcome where
  rc : Bool
  name : Option (List Byte)
  domErrno : ℕ
  domTtl : Dword
  record : Option ℕ
  top : ℕ

/-- `short_resp`. -/
def shortResp (b : NameBuf) (domTtl : Dword) : Outcome := ⟨false, none, dnsCliIllResp, domTtl, none, b.top⟩

/-- `dns->dns_fl_rcode`. -/
def rcode (b : Byte) : ℕ := (b &&& 0x0F).toNat

/-- `no_name`. -/
def noName (b : NameBuf) (domTtl : Dword) : Reads Byte (Option Outcome) := do
  let fl ← cell 3
  return some ⟨false, none, rcode fl, domTtl, none, b.top⟩

/-- The return from the loop over the answers, with the record at `p`. -/
def foundName (env : Env) (p : ℕ) (r : Resource) : Outcome :=
  match hostName env r.result.string with
  | none => ⟨false, none, dnsCliIllIdna, r.domTtl, none, r.result.top⟩
  | some name => ⟨true, some name, dnsSrvOk, r.domTtl, some p, r.result.top⟩

/-- `while (num_ans > 0)`, and what comes behind. -/
def answersR (env : Env) (ep fuel : ℕ) : (numAns p : ℕ) → NameBuf → Dword → Reads Byte (Option Outcome)
  | 0, _, b, ttl => noName b ttl
  | numAns + 1, p, b, ttl =>
    (dnsResourceR env dtypePtr ep fuel p b.clear ttl).andThen fun r =>
      if ep < r.p then pure (some (shortResp r.result r.domTtl))
      else if r.result.cells 0 ≠ 0 then pure (some (foundName env p r))
      else answersR env ep fuel numAns r.p r.result r.domTtl

/-- `while (num_q > 0)`, and what comes behind. -/
def questionsR (env : Env) (ep fuel numAns : ℕ) : (numQ p : ℕ) → NameBuf → Reads Byte (Option Outcome)
  | 0, p, b => answersR env ep fuel numAns p b env.domTtl
  | numQ + 1, p, b =>
    (dnsLabelsR ep fuel ⟨p, 0, b⟩).andThen fun r =>
      if ep < r.1 then pure (some (shortResp r.2 env.domTtl))
      else questionsR env ep fuel numAns numQ (r.1 + 4) r.2

/-- `read_response` on `len` bytes. -/
def readResponseR (env : Env) (len fuel : ℕ) : Reads Byte (Option Outcome) :=
  let result : NameBuf := { cells := env.stack }
  if len < headSize then pure (some (shortResp result env.domTtl))
  else do
    let numQ ← be16R 4
    let numAns ← be16R 6
    let fl ← cell 3
    if rcode fl ≠ dnsSrvOk ∨ numAns = 0 then noName result env.domTtl
    else questionsR env len fuel numAns.toNat numQ.toNat headSize result

/-- `sizeof(response)`. -/
def responseSize : ℕ := headSize + domSize

/-- `response`, behind `memset` and `sock_fastread`. -/
def response (env : Env) (reply : List Byte) : ℕ → Byte :=
  Mem.put (Mem.put env.stack 0 (List.replicate responseSize 0)) 0 (reply.take responseSize)

/-- `len`. -/
def received (reply : List Byte) : ℕ := (reply.take responseSize).length

/-! ## The law -/

/-- The place that a pointer has. -/
def target (mem : ℕ → Byte) (p : ℕ) : ℕ := (((mem p - 0xC0).setWidth 16 <<< 8) + (mem (p + 1)).setWidth 16 : Word).toNat

/-- The first `L` bytes hold a name at `p` that ends before `q`; its text, with a dot behind each label. -/
inductive NameAt (mem : ℕ → Byte) (L : ℕ) : (p q : ℕ) → (text : List Byte) → Prop
  | root {p : ℕ} : p < L → mem p = 0 → NameAt mem L p (p + 1) []
  | pointer {p q : ℕ} {text : List Byte} : p + 1 < L → 0xC0 ≤ mem p → NameAt mem L (target mem p) q text →
      NameAt mem L p (p + 2) text
  | label {p q : ℕ} {text : List Byte} : p + 1 + (mem p).toNat ≤ L → mem p < 0xC0 → mem p ≠ 0 →
      NameAt mem L (p + 1 + (mem p).toNat) q text →
      NameAt mem L p q (Mem.slice mem (p + 1) (mem p).toNat ++ dot :: text)

/-- Behind `n` questions. -/
inductive Questions (mem : ℕ → Byte) (L : ℕ) : (n p q : ℕ) → Prop
  | none {p : ℕ} : Questions mem L 0 p p
  | next {n p q p' : ℕ} {text : List Byte} : NameAt mem L p q text → text.length < domSize →
      Questions mem L n (q + 4) p' → Questions mem L (n + 1) p p'

/-- A PTR record of class IN, by what is behind its owner. -/
def IsPtr (mem : ℕ → Byte) (q : ℕ) : Prop := rclass mem q = din ∧ rtype mem q = dtypePtr

instance {mem : ℕ → Byte} {q : ℕ} : Decidable (IsPtr mem q) := inferInstanceAs (Decidable (_ ∧ _))

/-- One of the `n` records from `p` on is at `p'`: each has an owner, ten bytes, and as much data as it tells. -/
inductive RecordAt (mem : ℕ → Byte) (L : ℕ) : (n p p' : ℕ) → Prop
  | here {n p : ℕ} : RecordAt mem L (n + 1) p p
  | there {n p q p' : ℕ} {text : List Byte} : NameAt mem L p q text →
      RecordAt mem L n (q + 10 + rdlength mem q) p' → RecordAt mem L (n + 1) p p'

/-- The number of questions. -/
def qdcount (mem : ℕ → Byte) : ℕ := (be16 mem 4).toNat

/-- The record at `p'` is one of the answers. -/
def AnswerAt (mem : ℕ → Byte) (L p' : ℕ) : Prop :=
  ∃ p, Questions mem L (qdcount mem) headSize p ∧ RecordAt mem L (ancount mem) p p'

/-- The name is that of a PTR record of class IN among the answers. -/
def PtrName (env : Env) (mem : ℕ → Byte) (L p : ℕ) (name : List Byte) : Prop :=
  AnswerAt mem L p ∧ ∃ q q' owner text, NameAt mem L p q owner ∧ IsPtr mem q ∧ NameAt mem L (rdata q) q' text ∧
    hostName env (text.takeWhile (· ≠ 0)) = some name

/-- The function ends, reads the bytes received only and writes inside the arrays, and the name is a name of a PTR record. -/
def Bounded (env : Env) (reply : List Byte) : Prop :=
  ∃ fuel out, Gives (· < received reply) (response env reply) (readResponseR env (received reply) fuel) out ∧
    out.top ≤ domSize ∧
    (out.rc = true → ∃ p name, out.record = some p ∧ out.name = some name ∧
      PtrName env (response env reply) (received reply) p name)

/-- The records from `p` on have sound names, as far as the function looks at them. -/
inductive Answers (env : Env) (mem : ℕ → Byte) (L : ℕ) : (n p : ℕ) → Prop
  | done {p : ℕ} : Answers env mem L 0 p
  | short {n p q : ℕ} {owner : List Byte} : NameAt mem L p q owner → owner.length < domSize → q + 10 ≤ L →
      ¬ IsPtr mem q → L < q + 10 + rdlength mem q → Answers env mem L (n + 1) p
  | other {n p q : ℕ} {owner : List Byte} : NameAt mem L p q owner → owner.length < domSize → q + 10 ≤ L →
      ¬ IsPtr mem q → q + 10 + rdlength mem q ≤ L → Answers env mem L n (q + 10 + rdlength mem q) →
      Answers env mem L (n + 1) p
  | empty {n p q q' : ℕ} {owner text : List Byte} : NameAt mem L p q owner → owner.length < domSize → q + 10 ≤ L →
      IsPtr mem q → NameAt mem L (rdata q) q' text → text.length < domSize → text.headD 0 = 0 →
      Answers env mem L n q' → Answers env mem L (n + 1) p
  | found {n p q q' : ℕ} {owner text : List Byte} : NameAt mem L p q owner → owner.length < domSize → q + 10 ≤ L →
      IsPtr mem q → NameAt mem L (rdata q) q' text → text.length < domSize → text.headD 0 ≠ 0 →
      (hostName env (text.takeWhile (· ≠ 0)) ≠ none → AnswerAt mem L p) → Answers env mem L (n + 1) p

/-- What the reply has to be like. -/
def Sound (env : Env) (mem : ℕ → Byte) (L : ℕ) : Prop :=
  L < headSize ∨ rcode (mem 3) ≠ dnsSrvOk ∨ ancount mem = 0 ∨
    ∃ p, Questions mem L (qdcount mem) headSize p ∧ Answers env mem L (ancount mem) p

variable {env : Env} {mem : ℕ → Byte} {L n k p q p' q' r fuel : ℕ} {b b' : NameBuf} {s : Place} {c c' : Byte}
  {l l' text text' : List Byte} {ttl : Dword} {out : Outcome}

/-! ## The array -/

/-- Characters one after the other. -/
def NameBuf.write (b : NameBuf) (r : ℕ) : List Byte → NameBuf
  | [] => b
  | c :: l => (b.set r c).write (r + 1) l

/-- A text from `r` on, with a NUL unless there is none. -/
def NameBuf.append (b : NameBuf) (r : ℕ) (text : List Byte) : NameBuf := if text = [] then b else b.write r (text ++ [0])

theorem write_append : b.write r (l ++ l') = (b.write r l).write (r + l.length) l' := by
  induction l generalizing b r with
  | nil => rfl
  | cons c l ih =>
    rw [List.cons_append, NameBuf.write, ih, List.length_cons, Nat.add_right_comm, Nat.add_assoc r]
    rfl

theorem set_set : (b.set r c).set r c' = b.set r c' := by
  unfold NameBuf.set
  simp

theorem set_write (h : l ≠ []) : (b.set r c).write r l = b.write r l := by
  cases l with
  | nil => exact absurd rfl h
  | cons c' l => rw [NameBuf.write, set_set, NameBuf.write]

/-- A label and what is behind it. -/
theorem append_label (text : List Byte) (h : l ≠ []) :
    ((b.write r l).set (r + l.length) 0).append (r + l.length) text = b.append r (l ++ text) := by
  unfold NameBuf.append
  rw [if_neg (mt List.append_eq_nil_iff.mp fun h' => h h'.1)]
  by_cases htext : text = []
  · rw [if_pos htext, htext, List.append_nil, write_append]
    rfl
  · rw [if_neg htext, set_write (by simp), List.append_assoc, write_append (l := l)]

theorem top_write (h : l ≠ []) : (b.write r l).top = max b.top (r + l.length) := by
  induction l generalizing b r with
  | nil => exact absurd rfl h
  | cons c l ih =>
    rw [NameBuf.write, List.length_cons]
    by_cases hl : l = []
    · subst hl
      rfl
    · rw [ih hl]
      show max (max b.top (r + 1)) (r + 1 + l.length) = _
      omega

/-- The array is left only by a long text. -/
theorem top_append_le : (b.append 0 text).top ≤ domSize ↔ b.top ≤ domSize ∧ text.length < domSize := by
  unfold NameBuf.append
  by_cases h : text = []
  · rw [if_pos h, h]
    exact (and_iff_left (by decide)).symm
  · rw [if_neg h, top_write (by simp), List.length_append, List.length_singleton]
    omega

theorem cells_write_of_lt (h : k < r) : (b.write r l).cells k = b.cells k := by
  induction l generalizing b r with
  | nil => rfl
  | cons c l ih =>
    rw [NameBuf.write, ih (by omega)]
    exact Function.update_of_ne (by omega) _ _

theorem slice_write : Mem.slice (b.write r l).cells r l.length = l := by
  induction l generalizing b r with
  | nil => rfl
  | cons c l ih =>
    rw [List.length_cons, Nat.add_comm l.length, Mem.slice_add, NameBuf.write, ih]
    have hfirst : Mem.slice ((b.set r c).write (r + 1) l).cells r 1 = [c] := by
      show [((b.set r c).write (r + 1) l).cells (r + 0)] = [c]
      rw [cells_write_of_lt (by omega)]
      exact congrArg (fun x => [x]) (Function.update_self ..)
    rw [hfirst]
    rfl

theorem takeWhile_nul : (l ++ 0 :: l').takeWhile (· ≠ 0) = l.takeWhile (· ≠ (0 : Byte)) := by
  induction l with
  | nil => rfl
  | cons c l ih =>
    rw [List.cons_append, List.takeWhile_cons, List.takeWhile_cons, ih]

/-- The first character. -/
theorem append_head (h : b.cells 0 = 0) : (b.append 0 text).cells 0 = text.headD 0 := by
  unfold NameBuf.append
  cases text with
  | nil => exact h
  | cons c text =>
    rw [if_neg (List.cons_ne_nil c text), List.cons_append, NameBuf.write, cells_write_of_lt (by omega)]
    exact Function.update_self 0 c b.cells

/-- The string is the text up to its first NUL. -/
theorem append_string (h : text ≠ []) (hlen : text.length < domSize) :
    (b.append 0 text).string = text.takeWhile (· ≠ 0) := by
  have hslice : Mem.slice (b.write 0 (text ++ [0])).cells 0 (text.length + 1) = text ++ [0] := by
    have hw : Mem.slice (b.write 0 (text ++ [0])).cells 0 (text ++ [0]).length = text ++ [0] := slice_write
    rwa [List.length_append] at hw
  unfold NameBuf.append NameBuf.string
  rw [if_neg h, ← Nat.add_sub_cancel' (show text.length + 1 ≤ domSize from hlen), Mem.slice_add, hslice,
    List.append_assoc]
  exact takeWhile_nul

/-! ## Names -/

theorem within_labelBytesR (hp : s.p ≤ L) : Within (· < L) mem (labelBytesR L n s) ↔ s.p + n ≤ L := by
  induction n generalizing s with
  | zero => exact iff_of_true within_pure hp
  | succ n ih =>
    rw [labelBytesR, if_pos hp, within_bind, within_cell]
    constructor
    · rintro ⟨hlt, hrest⟩
      have hn := (ih (s := ⟨s.p + 1, s.result + 1, s.buf.set s.result (mem s.p)⟩) hlt).mp hrest
      dsimp only at hn
      omega
    · intro h
      exact ⟨by omega, (ih (show s.p + 1 ≤ L by omega)).mpr (show s.p + 1 + n ≤ L by omega)⟩

theorem eval_labelBytesR (h : s.p + n ≤ L) : eval mem (labelBytesR L n s) =
    (true, ⟨s.p + n, s.result + n, s.buf.write s.result (Mem.slice mem s.p n)⟩) := by
  induction n generalizing s with
  | zero => rfl
  | succ n ih =>
    have hrest : eval mem (labelBytesR L n ⟨s.p + 1, s.result + 1, s.buf.set s.result (mem s.p)⟩) = _ :=
      ih (show s.p + 1 + n ≤ L by omega)
    rw [labelBytesR, if_pos (by omega), eval_bind, eval_cell, hrest, Nat.add_comm n, Mem.slice_add, Nat.add_assoc,
      Nat.add_assoc]
    rfl

/-- One turn at a pointer. -/
theorem gives_pointer (h : 0xC0 ≤ mem s.p) :
    Gives (· < L) mem (dnsLabelsR L (fuel + 1) s) (q, b') ↔ s.p + 1 < L ∧ q = s.p + 2 ∧
      ∃ q', Gives (· < L) mem (dnsLabelsR L fuel { s with p := target mem s.p }) (q', b') := by
  rw [dnsLabelsR, gives_cell, if_pos h, gives_cell, gives_andThen]
  constructor
  · rintro ⟨-, hlo, r, hr, heq⟩
    rw [gives_pure] at heq
    cases heq
    exact ⟨hlo, rfl, r.1, hr⟩
  · rintro ⟨hlo, rfl, q', hr⟩
    exact ⟨by omega, hlo, (q', b'), hr, gives_pure.mpr rfl⟩

/-- One turn at the end. -/
theorem gives_root (h : mem s.p = 0) :
    Gives (· < L) mem (dnsLabelsR L (fuel + 1) s) (q, b') ↔ s.p < L ∧ q = s.p + 1 ∧ b' = s.buf := by
  rw [dnsLabelsR, gives_cell, h, if_neg (by decide), if_pos rfl]
  refine and_congr_right fun _ => ?_
  rw [show (return some (s.p + 1, s.buf) : Reads Byte (Option (ℕ × NameBuf))) = pure (some (s.p + 1, s.buf)) from rfl,
    gives_pure, Prod.mk.injEq]
  exact and_congr eq_comm eq_comm

/-- One turn at a label. -/
theorem gives_label (hlt : mem s.p < 0xC0) (h0 : mem s.p ≠ 0) :
    Gives (· < L) mem (dnsLabelsR L (fuel + 1) s) (q, b') ↔ s.p + 1 + (mem s.p).toNat ≤ L ∧
      Gives (· < L) mem (dnsLabelsR L fuel ⟨s.p + 1 + (mem s.p).toNat, s.result + (mem s.p).toNat + 1,
        (s.buf.write s.result (Mem.slice mem (s.p + 1) (mem s.p).toNat ++ [dot])).set
          (s.result + (mem s.p).toNat + 1) 0⟩) (q, b') := by
  have hwrite : s.buf.write s.result (Mem.slice mem (s.p + 1) (mem s.p).toNat ++ [dot]) =
      (s.buf.write s.result (Mem.slice mem (s.p + 1) (mem s.p).toNat)).set (s.result + (mem s.p).toNat) dot := by
    rw [write_append, Mem.length_slice]
    rfl
  rw [dnsLabelsR, gives_cell, if_neg (BitVec.not_le.mpr hlt), if_neg h0, gives_bind, hwrite]
  constructor
  · rintro ⟨hp, hwithin, hrest⟩
    have hle := (within_labelBytesR (s := { s with p := s.p + 1 }) hp).mp hwithin
    rw [eval_labelBytesR (s := { s with p := s.p + 1 }) hle, if_pos rfl] at hrest
    exact ⟨hle, hrest⟩
  · rintro ⟨hle, hrest⟩
    have hp : s.p + 1 ≤ L := by omega
    refine ⟨hp, (within_labelBytesR (s := { s with p := s.p + 1 }) hp).mpr hle, ?_⟩
    rw [eval_labelBytesR (s := { s with p := s.p + 1 }) hle, if_pos rfl]
    exact hrest

/-- **What is expanded is a name.** -/
theorem name_of_gives (h : Gives (· < L) mem (dnsLabelsR L fuel s) (q, b')) :
    ∃ text, NameAt mem L s.p q text ∧ b' = s.buf.append s.result text := by
  induction fuel generalizing s q with
  | zero => exact absurd h not_gives_none
  | succ fuel ih =>
    by_cases hpointer : 0xC0 ≤ mem s.p
    · obtain ⟨hlo, rfl, q', hrest⟩ := (gives_pointer hpointer).mp h
      obtain ⟨text, hname, hb⟩ := ih hrest
      exact ⟨text, .pointer hlo hpointer hname, hb⟩
    by_cases h0 : mem s.p = 0
    · obtain ⟨hp, rfl, rfl⟩ := (gives_root h0).mp h
      exact ⟨[], .root hp h0, rfl⟩
    · have hlt := BitVec.not_le.mp hpointer
      obtain ⟨hle, hrest⟩ := (gives_label hlt h0).mp h
      obtain ⟨text, hname, hb⟩ := ih hrest
      have happend := append_label (b := s.buf) (r := s.result) (l := Mem.slice mem (s.p + 1) (mem s.p).toNat ++ [dot])
        text (by simp)
      rw [List.length_append, Mem.length_slice, List.append_assoc] at happend
      exact ⟨_, .label hle hlt h0 hname, hb.trans happend⟩

/-- **A name is expanded**, with fuel enough. -/
theorem gives_of_name (h : NameAt mem L p q text) :
    ∃ N, ∀ fuel ≥ N, ∀ r b, Gives (· < L) mem (dnsLabelsR L fuel ⟨p, r, b⟩) (q, b.append r text) := by
  induction h with
  | root hp h0 =>
    refine ⟨1, fun fuel hf r b => ?_⟩
    obtain ⟨fuel, rfl⟩ := Nat.exists_eq_add_of_le' hf
    exact (gives_root (s := ⟨_, r, b⟩) h0).mpr ⟨hp, rfl, rfl⟩
  | pointer hlo hpointer _ ih =>
    obtain ⟨N, ih⟩ := ih
    refine ⟨N + 1, fun fuel hf r b => ?_⟩
    obtain ⟨fuel, rfl⟩ := Nat.exists_eq_add_of_le' (Nat.le_of_add_left_le hf)
    exact (gives_pointer (s := ⟨_, r, b⟩) hpointer).mpr ⟨hlo, rfl, _, ih fuel (by omega) r b⟩
  | @label p q text hle hlt h0 _ ih =>
    obtain ⟨N, ih⟩ := ih
    refine ⟨N + 1, fun fuel hf r b => ?_⟩
    obtain ⟨fuel, rfl⟩ := Nat.exists_eq_add_of_le' (Nat.le_of_add_left_le hf)
    have happend := append_label (b := b) (r := r) (l := Mem.slice mem (p + 1) (mem p).toNat ++ [dot]) text (by simp)
    rw [List.length_append, Mem.length_slice, List.append_assoc] at happend
    refine (gives_label (s := ⟨_, r, b⟩) hlt h0).mpr ⟨hle, ?_⟩
    have hrest := ih fuel (by omega) (r + (mem p).toNat + 1)
      ((b.write r (Mem.slice mem (p + 1) (mem p).toNat ++ [dot])).set (r + (mem p).toNat + 1) 0)
    exact happend ▸ hrest

theorem NameAt.le (h : NameAt mem L p q text) : q ≤ L := by
  induction h with
  | root hp => exact hp
  | pointer hlo => exact hlo
  | label _ _ _ _ ih => exact ih

/-! ## Records -/

/-- What `dns_resource` does. -/
theorem gives_resource {res : Resource} : Gives (· < L) mem (dnsResourceR env dtypePtr L fuel p b ttl) res ↔
    ∃ q d, Gives (· < L) mem (dnsLabelsR L fuel ⟨p, 0, { b with cells := env.stack }⟩) (q, d) ∧ q + 10 ≤ L ∧
      if IsPtr mem q then
        ∃ r, Gives (· < L) mem (dnsLabelsR L fuel ⟨rdata q, 0, { b with top := d.top }⟩) r ∧
          res = ⟨r.1, r.2, Dns.ttl mem q⟩
      else res = ⟨q + 10 + rdlength mem q, { b with top := d.top }, ttl⟩ := by
  have hreads (q : ℕ) (hq : q + 10 ≤ L) : Within (· < L) mem (be16R q) ∧ Within (· < L) mem (be16R (q + 2)) ∧
      Within (· < L) mem (be32R (q + 4)) ∧ Within (· < L) mem (be16R (q + 8)) :=
    ⟨within_be16R.mpr (by omega), within_be16R.mpr (by omega), within_be32R.mpr (by omega), within_be16R.mpr (by omega)⟩
  have hreturn (q : ℕ) (d : NameBuf) : Gives (· < L) mem
      (if rclass mem q = din ∧ rtype mem q = dtypePtr then
        (dnsLabelsR L fuel ⟨q + 10, 0, { b with top := d.top }⟩).andThen fun r => pure (some ⟨r.1, r.2, Dns.ttl mem q⟩)
      else pure (some ⟨q + 10 + rdlength mem q, { b with top := d.top }, ttl⟩)) res ↔
      if IsPtr mem q then
        ∃ r, Gives (· < L) mem (dnsLabelsR L fuel ⟨rdata q, 0, { b with top := d.top }⟩) r ∧
          res = ⟨r.1, r.2, Dns.ttl mem q⟩
      else res = ⟨q + 10 + rdlength mem q, { b with top := d.top }, ttl⟩ := by
    by_cases hptr : IsPtr mem q
    · have hclass : rclass mem q = din ∧ rtype mem q = dtypePtr := hptr
      rw [if_pos hptr, if_pos hclass, gives_andThen]
      exact exists_congr fun r => and_congr_right fun _ => gives_pure.trans eq_comm
    · have hclass : ¬ (rclass mem q = din ∧ rtype mem q = dtypePtr) := hptr
      rw [if_neg hptr, if_neg hclass]
      exact gives_pure.trans eq_comm
  unfold dnsResourceR
  rw [gives_andThen]
  constructor
  · rintro ⟨⟨q, d⟩, hd, hrest⟩
    rw [gives_bind, gives_bind, gives_bind, gives_bind] at hrest
    obtain ⟨-, -, -, hlen, hrest⟩ := hrest
    have hq := within_be16R.mp hlen
    dsimp only at hq
    exact ⟨q, d, hd, by omega, (hreturn q d).mp hrest⟩
  · rintro ⟨q, d, hd, hq, hrest⟩
    obtain ⟨htype, hclass, httl, hlen⟩ := hreads q hq
    refine ⟨(q, d), hd, ?_⟩
    rw [gives_bind, gives_bind, gives_bind, gives_bind]
    exact ⟨htype, hclass, httl, hlen, (hreturn q d).mpr hrest⟩

/-- The record that `dns_resource` parses. -/
theorem record_of_gives {res : Resource} (h : Gives (· < L) mem (dnsResourceR env dtypePtr L fuel p b.clear ttl) res)
    (htop : res.result.top ≤ domSize) : ∃ q owner, NameAt mem L p q owner ∧ owner.length < domSize ∧ q + 10 ≤ L ∧
      b.top ≤ domSize ∧
      (¬ IsPtr mem q ∧ res.p = q + 10 + rdlength mem q ∧ res.result.cells 0 = 0 ∨
        IsPtr mem q ∧ ∃ text, NameAt mem L (rdata q) res.p text ∧ text.length < domSize ∧
          res.result.cells 0 = text.headD 0 ∧ (text ≠ [] → res.result.string = text.takeWhile (· ≠ 0))) := by
  obtain ⟨q, d, hd, hq, hrest⟩ := gives_resource.mp h
  obtain ⟨owner, howner, rfl⟩ := name_of_gives hd
  refine ⟨q, owner, howner, ?_⟩
  by_cases hptr : IsPtr mem q
  · rw [if_pos hptr] at hrest
    obtain ⟨⟨q', d'⟩, hr, rfl⟩ := hrest
    obtain ⟨text, hname, hresult⟩ := name_of_gives hr
    dsimp only at htop hname hresult ⊢
    rw [hresult] at htop ⊢
    obtain ⟨hdummy, htext⟩ := top_append_le.mp htop
    obtain ⟨hb, hlen⟩ := top_append_le.mp hdummy
    exact ⟨hlen, hq, hb, .inr ⟨hptr, text, hname, htext, append_head rfl, fun hne => append_string hne htext⟩⟩
  · rw [if_neg hptr] at hrest
    subst hrest
    obtain ⟨hb, hlen⟩ := top_append_le.mp htop
    exact ⟨hlen, hq, hb, .inl ⟨hptr, rfl, rfl⟩⟩

/-- A record of another type is passed. -/
theorem gives_of_other (env : Env) (howner : NameAt mem L p q text) (hlen : text.length < domSize) (hq : q + 10 ≤ L)
    (hptr : ¬ IsPtr mem q) : ∃ N, ∀ fuel ≥ N, ∀ (b : NameBuf) ttl, b.top ≤ domSize →
      ∃ res, Gives (· < L) mem (dnsResourceR env dtypePtr L fuel p b.clear ttl) res ∧
        res.p = q + 10 + rdlength mem q ∧ res.result.top ≤ domSize ∧ res.result.cells 0 = 0 := by
  obtain ⟨N, hN⟩ := gives_of_name howner
  refine ⟨N, fun fuel hf b ttl hb => ?_⟩
  refine ⟨_, gives_resource.mpr ⟨q, _, hN fuel hf 0 _, hq, (if_neg hptr).mpr rfl⟩, rfl, ?_, rfl⟩
  exact top_append_le.mpr ⟨hb, hlen⟩

/-- A PTR record gives its name. -/
theorem gives_of_ptr (env : Env) (howner : NameAt mem L p q text) (hlen : text.length < domSize) (hq : q + 10 ≤ L)
    (hptr : IsPtr mem q) (hname : NameAt mem L (rdata q) q' text') (hlen' : text'.length < domSize) :
    ∃ N, ∀ fuel ≥ N, ∀ (b : NameBuf) ttl, b.top ≤ domSize →
      ∃ res, Gives (· < L) mem (dnsResourceR env dtypePtr L fuel p b.clear ttl) res ∧ res.p = q' ∧
        res.result.top ≤ domSize ∧ res.result.cells 0 = text'.headD 0 ∧
        (text' ≠ [] → res.result.string = text'.takeWhile (· ≠ 0)) := by
  obtain ⟨N, hN⟩ := gives_of_name howner
  obtain ⟨M, hM⟩ := gives_of_name hname
  refine ⟨max N M, fun fuel hf b ttl hb => ?_⟩
  have hdummy := hN fuel (le_trans (le_max_left N M) hf) 0 { b.clear with cells := env.stack }
  have hresult := hM fuel (le_trans (le_max_right N M) hf) 0
    { b.clear with top := (NameBuf.append { b.clear with cells := env.stack } 0 text).top }
  refine ⟨_, gives_resource.mpr ⟨q, _, hdummy, hq, (if_pos hptr).mpr ⟨_, hresult, rfl⟩⟩, rfl, ?_, append_head rfl,
    fun hne => append_string hne hlen'⟩
  exact top_append_le.mpr ⟨top_append_le.mpr ⟨hb, hlen⟩, hlen'⟩

/-! ## The response -/

/-- The answers that are parsed without leaving reply and arrays are sound. -/
theorem answers_of_gives (h : Gives (· < L) mem (answersR env L fuel n p b ttl) out) (htop : out.top ≤ domSize)
    (hrecord : out.rc = true → ∀ p', out.record = some p' → AnswerAt mem L p') :
    b.top ≤ domSize ∧ Answers env mem L n p := by
  induction n generalizing p b ttl with
  | zero =>
    rw [answersR, noName, gives_cell] at h
    obtain ⟨-, h⟩ := h
    cases gives_pure.mp h
    exact ⟨htop, .done⟩
  | succ n ih =>
    rw [answersR, gives_andThen] at h
    obtain ⟨res, hres, hrest⟩ := h
    by_cases hshort : L < res.p
    · rw [if_pos hshort] at hrest
      cases gives_pure.mp hrest
      obtain ⟨q, owner, howner, hlen, hq, hb, ⟨hptr, hp, -⟩ | ⟨-, text, hname, -⟩⟩ := record_of_gives hres htop
      · exact ⟨hb, .short howner hlen hq hptr (hp ▸ hshort)⟩
      · exact absurd hname.le (by omega)
    rw [if_neg hshort] at hrest
    by_cases hfound : res.result.cells 0 ≠ 0
    · rw [if_pos hfound] at hrest
      cases gives_pure.mp hrest
      have htop' : res.result.top ≤ domSize := by
        unfold foundName at htop
        cases hname : hostName env res.result.string with
        | none => simpa only [hname] using htop
        | some name => simpa only [hname] using htop
      obtain ⟨q, owner, howner, hlen, hq, hb, ⟨-, -, hzero⟩ | ⟨hptr, text, hname, htext, hhead, hstring⟩⟩ :=
        record_of_gives hres htop'
      · exact absurd hzero hfound
      have hne : text.headD 0 ≠ 0 := hhead ▸ hfound
      have htext' : text ≠ [] := by
        rintro rfl
        exact hne rfl
      refine ⟨hb, .found howner hlen hq hptr hname htext hne fun hhost => ?_⟩
      rw [← hstring htext'] at hhost
      obtain ⟨name, hhost⟩ := Option.ne_none_iff_exists'.mp hhost
      refine hrecord ?_ p ?_ <;>
      · unfold foundName
        rw [hhost]
    · rw [if_neg hfound] at hrest
      obtain ⟨hrestop, hanswers⟩ := ih hrest
      obtain ⟨q, owner, howner, hlen, hq, hb, ⟨hptr, hp, -⟩ | ⟨hptr, text, hname, htext, hhead, -⟩⟩ :=
        record_of_gives hres hrestop
      · rw [hp] at hanswers hshort
        exact ⟨hb, .other howner hlen hq hptr (not_lt.mp hshort) hanswers⟩
      · exact ⟨hb, .empty howner hlen hq hptr hname htext (hhead ▸ not_not.mp hfound) hanswers⟩

/-- What the law has of the outcome. -/
def Safe (env : Env) (mem : ℕ → Byte) (L : ℕ) (out : Outcome) : Prop :=
  out.top ≤ domSize ∧ (out.rc = true → ∃ p name, out.record = some p ∧ out.name = some name ∧ PtrName env mem L p name)

/-- Sound answers are parsed. -/
theorem gives_of_answers (hL : headSize ≤ L) (h : Answers env mem L n p) : ∃ N, ∀ fuel ≥ N, ∀ (b : NameBuf) ttl,
    b.top ≤ domSize → ∃ out, Gives (· < L) mem (answersR env L fuel n p b ttl) out ∧ Safe env mem L out := by
  have hhead : 3 < L := lt_of_lt_of_le (by decide) hL
  induction h with
  | done =>
    refine ⟨0, fun fuel _ b ttl hb =>
      ⟨⟨false, none, rcode (mem 3), ttl, none, b.top⟩, ?_, hb, fun hrc => Bool.noConfusion hrc⟩⟩
    rw [answersR, noName, gives_cell]
    exact ⟨hhead, gives_pure.mpr rfl⟩
  | short howner hlen hq hptr hlong =>
    obtain ⟨N, hN⟩ := gives_of_other env howner hlen hq hptr
    refine ⟨N, fun fuel hf b ttl hb => ?_⟩
    obtain ⟨res, hres, hp, htop, -⟩ := hN fuel hf b ttl hb
    refine ⟨shortResp res.result res.domTtl, ?_, htop, fun hrc => Bool.noConfusion hrc⟩
    rw [answersR, gives_andThen]
    refine ⟨res, hres, ?_⟩
    rw [if_pos (hp ▸ hlong)]
    exact gives_pure.mpr rfl
  | other howner hlen hq hptr hle _ ih =>
    obtain ⟨N, hN⟩ := gives_of_other env howner hlen hq hptr
    obtain ⟨M, hM⟩ := ih
    refine ⟨max N M, fun fuel hf b ttl hb => ?_⟩
    obtain ⟨res, hres, hp, htop, hzero⟩ := hN fuel (le_trans (le_max_left N M) hf) b ttl hb
    obtain ⟨out, hout, hsafe⟩ := hM fuel (le_trans (le_max_right N M) hf) res.result res.domTtl htop
    refine ⟨out, ?_, hsafe⟩
    rw [answersR, gives_andThen]
    refine ⟨res, hres, ?_⟩
    rw [if_neg (by omega), if_neg (not_not.mpr hzero), hp]
    exact hout
  | empty howner hlen hq hptr hname hlen' hempty _ ih =>
    obtain ⟨N, hN⟩ := gives_of_ptr env howner hlen hq hptr hname hlen'
    obtain ⟨M, hM⟩ := ih
    refine ⟨max N M, fun fuel hf b ttl hb => ?_⟩
    obtain ⟨res, hres, hp, htop, hzero, -⟩ := hN fuel (le_trans (le_max_left N M) hf) b ttl hb
    obtain ⟨out, hout, hsafe⟩ := hM fuel (le_trans (le_max_right N M) hf) res.result res.domTtl htop
    refine ⟨out, ?_, hsafe⟩
    rw [answersR, gives_andThen]
    refine ⟨res, hres, ?_⟩
    rw [if_neg (by rw [hp]; exact not_lt.mpr hname.le), if_neg (not_not.mpr (hzero.trans hempty)), hp]
    exact hout
  | @found n p q q' owner text howner hlen hq hptr hname hlen' hne hanswer =>
    obtain ⟨N, hN⟩ := gives_of_ptr env howner hlen hq hptr hname hlen'
    refine ⟨N, fun fuel hf b ttl hb => ?_⟩
    obtain ⟨res, hres, hp, htop, hfirst, hstring⟩ := hN fuel hf b ttl hb
    have hgives : Gives (· < L) mem (answersR env L fuel (n + 1) p b ttl) (foundName env p res) := by
      rw [answersR, gives_andThen]
      refine ⟨res, hres, ?_⟩
      rw [if_neg (by rw [hp]; exact not_lt.mpr hname.le), if_pos (by rw [hfirst]; exact hne)]
      exact gives_pure.mpr rfl
    have htext : text ≠ [] := by
      rintro rfl
      exact hne rfl
    refine ⟨_, hgives, ?_⟩
    cases hhost : hostName env res.result.string with
    | none =>
      have hout : foundName env p res = ⟨false, none, dnsCliIllIdna, res.domTtl, none, res.result.top⟩ := by
        unfold foundName
        rw [hhost]
      rw [hout]
      exact ⟨htop, fun hrc => Bool.noConfusion hrc⟩
    | some name =>
      have hout : foundName env p res = ⟨true, some name, dnsSrvOk, res.domTtl, some p, res.result.top⟩ := by
        unfold foundName
        rw [hhost]
      rw [hstring htext] at hhost
      have hat := hanswer (by rw [hhost]; exact Option.some_ne_none name)
      rw [hout]
      exact ⟨htop, fun _ => ⟨p, name, rfl, rfl, hat, q, q', owner, text, howner, hptr, hname, hhost⟩⟩

/-- Questions that are passed without leaving reply and arrays. -/
theorem questions_of_gives {num : ℕ} (h : Gives (· < L) mem (questionsR env L fuel num n p b) out)
    (htop : out.top ≤ domSize) (hrecord : out.rc = true → ∀ p', out.record = some p' → AnswerAt mem L p') :
    b.top ≤ domSize ∧ ∃ p', Questions mem L n p p' ∧ Answers env mem L num p' := by
  induction n generalizing p b with
  | zero =>
    rw [questionsR] at h
    obtain ⟨hb, hanswers⟩ := answers_of_gives h htop hrecord
    exact ⟨hb, p, .none, hanswers⟩
  | succ n ih =>
    rw [questionsR, gives_andThen] at h
    obtain ⟨⟨q, d⟩, hd, hrest⟩ := h
    obtain ⟨text, hname, rfl⟩ := name_of_gives hd
    rw [if_neg (not_lt.mpr hname.le)] at hrest
    obtain ⟨hd, p', hquestions, hanswers⟩ := ih hrest
    obtain ⟨hb, hlen⟩ := top_append_le.mp hd
    exact ⟨hb, p', .next hname hlen hquestions, hanswers⟩

/-- Sound questions are passed. -/
theorem gives_of_questions {num : ℕ} (hL : headSize ≤ L) (h : Questions mem L n p q)
    (hanswers : Answers env mem L num q) : ∃ N, ∀ fuel ≥ N, ∀ b : NameBuf, b.top ≤ domSize →
      ∃ out, Gives (· < L) mem (questionsR env L fuel num n p b) out ∧ Safe env mem L out := by
  induction h with
  | none =>
    obtain ⟨N, hN⟩ := gives_of_answers hL hanswers
    exact ⟨N, fun fuel hf b hb => hN fuel hf b env.domTtl hb⟩
  | next hname hlen _ ih =>
    obtain ⟨N, hN⟩ := gives_of_name hname
    obtain ⟨M, hM⟩ := ih hanswers
    refine ⟨max N M, fun fuel hf b hb => ?_⟩
    obtain ⟨out, hout, hsafe⟩ := hM fuel (le_trans (le_max_right N M) hf) _ (top_append_le.mpr ⟨hb, hlen⟩)
    refine ⟨out, ?_, hsafe⟩
    rw [questionsR, gives_andThen]
    refine ⟨_, hN fuel (le_trans (le_max_left N M) hf) 0 b, ?_⟩
    rw [if_neg (not_lt.mpr hname.le)]
    exact hout

/-- The head of a response that is long enough. -/
theorem gives_response (hL : headSize ≤ L) : Gives (· < L) mem (readResponseR env L fuel) out ↔
    Gives (· < L) mem (if rcode (mem 3) ≠ dnsSrvOk ∨ ancount mem = 0 then noName { cells := env.stack } env.domTtl
      else questionsR env L fuel (ancount mem) (qdcount mem) headSize { cells := env.stack }) out := by
  have hzero : be16 mem 6 = 0 ↔ ancount mem = 0 := BitVec.toNat_inj.symm
  have hhead : 12 ≤ L := hL
  unfold readResponseR
  rw [if_neg (not_lt.mpr hL), gives_bind, and_iff_right (within_be16R.mpr (by omega)), gives_bind,
    and_iff_right (within_be16R.mpr (by omega)), gives_cell, and_iff_right (by omega)]
  by_cases hnone : rcode (mem 3) ≠ dnsSrvOk ∨ ancount mem = 0
  · have hnone' : rcode (mem 3) ≠ dnsSrvOk ∨ be16 mem 6 = 0 := hnone.imp_right hzero.mpr
    rw [if_pos hnone]
    exact iff_of_eq (congrArg (fun x => Gives _ mem x out) (if_pos hnone'))
  · have hnone' : ¬ (rcode (mem 3) ≠ dnsSrvOk ∨ be16 mem 6 = 0) := mt (Or.imp_right hzero.mp) hnone
    rw [if_neg hnone]
    exact iff_of_eq (congrArg (fun x => Gives _ mem x out) (if_neg hnone'))

/-- A response that is parsed safely is sound. -/
theorem sound_of_gives (h : Gives (· < L) mem (readResponseR env L fuel) out) (hsafe : Safe env mem L out) :
    Sound env mem L := by
  rcases Nat.lt_or_ge L headSize with hL | hL
  · exact .inl hL
  rw [gives_response hL] at h
  by_cases hnone : rcode (mem 3) ≠ dnsSrvOk ∨ ancount mem = 0
  · exact .inr (or_assoc.mp (.inl hnone))
  rw [if_neg hnone] at h
  have hrecord : out.rc = true → ∀ p', out.record = some p' → AnswerAt mem L p' := by
    intro hrc p' hp'
    obtain ⟨p, name, hp, -, hat, -⟩ := hsafe.2 hrc
    rw [hp'] at hp
    cases hp
    exact hat
  exact .inr (.inr (.inr (questions_of_gives h hsafe.1 hrecord).2))

/-- A sound response is parsed safely. -/
theorem gives_of_sound (h : Sound env mem L) :
    ∃ fuel out, Gives (· < L) mem (readResponseR env L fuel) out ∧ Safe env mem L out := by
  have hstart : ({ cells := env.stack } : NameBuf).top ≤ domSize := Nat.zero_le domSize
  rcases Nat.lt_or_ge L headSize with hL | hL
  · refine ⟨0, shortResp { cells := env.stack } env.domTtl, ?_, hstart, fun hrc => Bool.noConfusion hrc⟩
    unfold readResponseR
    rw [if_pos hL]
    exact gives_pure.mpr rfl
  by_cases hnone : rcode (mem 3) ≠ dnsSrvOk ∨ ancount mem = 0
  · refine ⟨0, ⟨false, none, rcode (mem 3), env.domTtl, none, 0⟩, (gives_response hL).mpr ?_, hstart,
      fun hrc => Bool.noConfusion hrc⟩
    rw [if_pos hnone, noName, gives_cell]
    exact ⟨lt_of_lt_of_le (by decide) hL, gives_pure.mpr rfl⟩
  · obtain hshort | hrcode | hzero | ⟨p, hquestions, hanswers⟩ := h
    · exact absurd hshort (not_lt.mpr hL)
    · exact absurd (.inl hrcode) hnone
    · exact absurd (.inr hzero) hnone
    obtain ⟨N, hN⟩ := gives_of_questions hL hquestions hanswers
    obtain ⟨out, hout, hsafe⟩ := hN N le_rfl _ hstart
    refine ⟨N, out, (gives_response hL).mpr ?_, hsafe⟩
    rw [if_neg hnone]
    exact hout

/-- Which replies are parsed safely. -/
theorem reverse_reply_iff (env : Env) (reply : List Byte) :
    Bounded env reply ↔ Sound env (response env reply) (received reply) := by
  constructor
  · rintro ⟨fuel, out, h, hsafe⟩
    exact sound_of_gives h hsafe
  · exact gives_of_sound

/-- A question whose name is a pointer to itself, and the promise of an answer. -/
def selfPointer : List Byte := [0, 0, 0x81, 0, 0, 1, 0, 1, 0, 0, 0, 0, 0xC0, 12, 0, 12, 0, 1]

/-- Its name does not end. -/
theorem selfPointer_no_name (h : NameAt (response {} selfPointer) 18 p q text) : p ≠ 12 := by
  induction h with
  | @root p _ h0 =>
    rintro rfl
    exact absurd h0 (by decide)
  | @pointer p q text _ _ _ ih =>
    rintro rfl
    exact ih (by decide)
  | @label p q text _ hlt =>
    rintro rfl
    exact absurd hlt (by decide)

theorem selfPointer_unbounded : ¬ Bounded {} selfPointer := by
  rintro ⟨fuel, out, h, hsafe⟩
  obtain hshort | hrcode | hzero | ⟨p, hquestions, -⟩ := sound_of_gives h hsafe
  · exact absurd hshort (by decide)
  · exact hrcode (by decide)
  · exact absurd hzero (by decide)
  · have hone : qdcount (response {} selfPointer) = 1 := by decide
    rw [hone] at hquestions
    cases hquestions with
    | next hname => exact selfPointer_no_name hname rfl

end Watt32.Dns.Reverse
