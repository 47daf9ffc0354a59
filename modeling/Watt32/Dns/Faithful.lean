import Watt32.Dns.Inside

/-!
# The address that `read_response` reports

The address is the data of the first record of class IN and the asked type. The parser takes as many
bytes as an address has, whatever `rdlength` says, and wherever they lie.

* `FirstAddress`; **`records_address`**: the record whose data the loop reports.
* `Faithful`: the parser reads within the reply, and reports the data of a proper record.
* **`readResponse_faithful_iff`**: when it does.
-/

namespace Watt32.Dns

open Reads

variable {mem : ℕ → Byte} {L fuel p q nans numAddr : ℕ} {len : ℤ} {qtype : Word} {ans : Answer}

/-! ## The first record -/

/-- A record of class IN and the asked type. -/
def Asked (mem : ℕ → Byte) (qtype : Word) (rrp : ℕ) : Prop := rclass mem rrp = din ∧ rtype mem rrp = qtype

instance {rrp : ℕ} : Decidable (Asked mem qtype rrp) := inferInstanceAs (Decidable (_ ∧ _))

/-- The first of the `nans` records from `p` on that is asked for. -/
inductive FirstAddress (mem : ℕ → Byte) (qtype : Word) : (nans p : ℕ) → (len : ℤ) → (rrp : ℕ) → Prop
  | here {nans p : ℕ} {len : ℤ} : 0 < len → NameEnds mem p len domSize → ¬TooLong mem p len domSize →
      Asked mem qtype (p + nameLen mem p len domSize) →
      FirstAddress mem qtype (nans + 1) p len (p + nameLen mem p len domSize)
  | later {nans p rrp q : ℕ} {len : ℤ} : 0 < len → NameEnds mem p len domSize →
      ¬TooLong mem p len domSize → rrp = p + nameLen mem p len domSize → ¬Asked mem qtype rrp →
      FirstAddress mem qtype nans (rrp + resourceHeadSize + rdlength mem rrp)
        (len - (resourceHeadSize + rdlength mem rrp : ℕ)) q →
      FirstAddress mem qtype (nans + 1) p len q

/-- The data of a record as an address. -/
def address (mem : ℕ → Byte) (qtype : Word) (rrp : ℕ) : Address :=
  if qtype = dtypeAaaa then .ip6 (Mem.slice mem (rdata rrp) 16) else .ip4 (be32 mem (rdata rrp))

/-- A record that is asked for counts; the first one is the address. -/
theorem answer_asked {rrp : ℕ} (numAddr : ℕ) (ans : Answer) (h : Asked mem qtype rrp) :
    0 < (answer mem qtype rrp numAddr ans).1 ∧
    (answer mem qtype rrp numAddr ans).2.addr =
      if numAddr = 0 then some (address mem qtype rrp) else ans.addr := by
  unfold answer storeAltAddress
  rw [if_pos h.1, if_pos h.2]
  by_cases h0 : numAddr = 0
  · rw [if_pos h0, if_pos h0]
    exact ⟨Nat.one_pos, rfl⟩
  · rw [if_neg h0, if_neg h0]
    refine ⟨Nat.succ_pos _, ?_⟩
    dsimp only
    split_ifs <;> rfl

/-- Another record does not. -/
theorem answer_other {rrp : ℕ} (numAddr : ℕ) (ans : Answer) (h : ¬Asked mem qtype rrp) :
    (answer mem qtype rrp numAddr ans).1 = numAddr ∧ (answer mem qtype rrp numAddr ans).2.addr = ans.addr := by
  unfold answer
  by_cases hc : rclass mem rrp = din
  · rw [if_pos hc, if_neg fun ht => h ⟨hc, ht⟩]
    split_ifs <;> exact ⟨rfl, rfl⟩
  · rw [if_neg hc]
    exact ⟨rfl, rfl⟩

/-- Once there is an address, it stays. -/
theorem records_keep {k : ℕ} {a : Answer} (h0 : 0 < numAddr)
    (h : records mem qtype fuel nans p len numAddr ans = some (k, a)) : 0 < k ∧ a.addr = ans.addr := by
  induction nans generalizing p len numAddr ans with
  | zero =>
    obtain ⟨rfl, rfl⟩ := Prod.mk.inj (Option.some.inj h)
    exact ⟨h0, rfl⟩
  | succ nans ih =>
    rw [records] at h
    split_ifs at h with hlen
    · split at h
      · cases h
      · obtain ⟨rfl, rfl⟩ := Prod.mk.inj (Option.some.inj h)
        exact ⟨h0, rfl⟩
      · next u hu =>
        by_cases hask : Asked mem qtype (p + u.retval)
        · obtain ⟨hpos, haddr⟩ := answer_asked numAddr ans hask
          rw [if_neg h0.ne'] at haddr
          obtain ⟨hk, ha⟩ := ih hpos h
          exact ⟨hk, ha.trans haddr⟩
        · obtain ⟨hn, haddr⟩ := answer_other numAddr ans hask
          have hpos : 0 < (answer mem qtype (p + u.retval) numAddr ans).1 := by rwa [hn]
          obtain ⟨hk, ha⟩ := ih hpos h
          exact ⟨hk, ha.trans haddr⟩
    · obtain ⟨rfl, rfl⟩ := Prod.mk.inj (Option.some.inj h)
      exact ⟨h0, rfl⟩

/-- **What the loop reports** is the first record that is asked for. -/
theorem records_address {k : ℕ} {a : Answer}
    (h : records mem qtype fuel nans p len 0 ans = some (k, a)) :
    (0 < k ↔ ∃ rrp, FirstAddress mem qtype nans p len rrp) ∧
      ∀ rrp, FirstAddress mem qtype nans p len rrp → a.addr = some (address mem qtype rrp) := by
  induction nans generalizing p len ans with
  | zero =>
    obtain ⟨rfl, rfl⟩ := Prod.mk.inj (Option.some.inj h)
    have hnone (rrp : ℕ) : ¬FirstAddress mem qtype 0 p len rrp := fun hf => by cases hf
    exact ⟨iff_of_false (lt_irrefl 0) (not_exists.mpr hnone), fun rrp hf => absurd hf (hnone rrp)⟩
  | succ nans ih =>
    rw [records] at h
    split_ifs at h with hlen
    · split at h
      · cases h
      · next hu =>
        obtain ⟨rfl, rfl⟩ := Prod.mk.inj (Option.some.inj h)
        have hlong := (unpackDomain_spec hu).1.mp rfl
        have hnone (rrp : ℕ) : ¬FirstAddress mem qtype (nans + 1) p len rrp := fun hf => by
          cases hf with
          | here _ _ hl => exact hl hlong
          | later _ _ hl => exact hl hlong
        exact ⟨iff_of_false (lt_irrefl 0) (not_exists.mpr hnone), fun rrp hf => absurd hf (hnone rrp)⟩
      · next u hu =>
        obtain ⟨he, hl, hret⟩ := unpackDomain_eq_some hu
        rw [hret] at h
        by_cases hask : Asked mem qtype (p + nameLen mem p len domSize)
        · obtain ⟨hpos, haddr⟩ := answer_asked 0 ans hask
          rw [if_pos rfl] at haddr
          obtain ⟨hk, ha⟩ := records_keep hpos h
          refine ⟨iff_of_true hk ⟨_, .here hlen he hl hask⟩, fun rrp hf => ?_⟩
          cases hf with
          | here _ _ _ _ => exact ha.trans haddr
          | later _ _ _ hr hn => exact absurd (hr ▸ hask) hn
        · obtain ⟨hn, haddr⟩ := answer_other 0 ans hask
          dsimp only at h
          rw [hn] at h
          obtain ⟨hk, ha⟩ := ih h
          refine ⟨hk.trans (exists_congr fun rrp => ⟨fun hf => .later hlen he hl rfl hask hf, fun hf => ?_⟩), fun rrp hf => ?_⟩
          · cases hf with
            | here _ _ _ h => exact absurd h hask
            | later _ _ _ hr _ hf => exact hr ▸ hf
          · cases hf with
            | here _ _ _ h => exact absurd h hask
            | later _ _ _ hr _ hf => exact ha rrp (hr ▸ hf)
    · obtain ⟨rfl, rfl⟩ := Prod.mk.inj (Option.some.inj h)
      have hnone (rrp : ℕ) : ¬FirstAddress mem qtype (nans + 1) p len rrp := fun hf => by
        cases hf with
        | here h => exact hlen h
        | later h => exact hlen h
      exact ⟨iff_of_false (lt_irrefl 0) (not_exists.mpr hnone), fun rrp hf => absurd hf (hnone rrp)⟩

/-- The first record that is asked for is in the reply if all that is read is. -/
theorem FirstAddress.inside {rrp : ℕ} (hf : FirstAddress mem qtype nans p len rrp)
    (h : RecordsInside mem L qtype nans p len 0 ans) : rdata rrp + addrSize qtype ≤ L := by
  induction hf generalizing ans with
  | here hlen he hl hask =>
    obtain ⟨⟨-, hrec⟩, -⟩ := (h hlen).2 he hl
    exact (hrec hask.1).1 hask.2 (Nat.zero_le _)
  | later hlen he hl hr hn _ ih =>
    obtain ⟨-, hrest⟩ := (h hlen).2 he hl
    subst hr
    rw [(answer_other _ _ hn).1] at hrest
    exact ih hrest

/-- The record whose data the parser reports. -/
def Reported (mem : ℕ → Byte) (L : ℕ) (qtype : Word) (rrp : ℕ) : Prop :=
  FirstAddress mem qtype (ancount mem) (headSize + nameLen mem headSize (L - headSize) domSize + 4)
    (L - headSize) rrp

/-- **Faithful**: the parser reads within the reply, and an address that it reports is the data of the
first record of class IN and the asked type, has the length of such an address there, and lies in the
reply with its record. -/
def Faithful (mem : ℕ → Byte) (L : ℕ) (qtype : Word) (ans : Answer) : Prop :=
  (∀ fuel, Within (· < L) mem (readResponseR L qtype fuel ans)) ∧
    ∀ fuel a, eval mem (readResponseR L qtype fuel ans) = some (true, a) → ∃ rrp, Reported mem L qtype rrp ∧
      Asked mem qtype rrp ∧ a.addr = some (address mem qtype rrp) ∧ rdlength mem rrp = addrSize qtype ∧
      rdata rrp + rdlength mem rrp ≤ L

theorem FirstAddress.asked {rrp : ℕ} (h : FirstAddress mem qtype nans p len rrp) : Asked mem qtype rrp := by
  induction h with
  | here _ _ _ hask => exact hask
  | later _ _ _ _ _ _ ih => exact ih

theorem FirstAddress.unique {rrp rrp' : ℕ} (h : FirstAddress mem qtype nans p len rrp)
    (h' : FirstAddress mem qtype nans p len rrp') : rrp = rrp' := by
  induction h with
  | here _ _ _ hask =>
    cases h' with
    | here => rfl
    | later _ _ _ hr hn => exact absurd (hr ▸ hask) hn
  | later _ _ _ hr hn _ ih =>
    subst hr
    cases h' with
    | here _ _ _ hask => exact absurd hask hn
    | later _ _ _ hr _ hf => exact ih (hr ▸ hf)

/-- An address that is reported is that of the first record that is asked for. -/
theorem readResponse_true {a : Answer} (h : readResponse mem L qtype fuel ans = some (true, a)) :
    HasAnswers mem ∧ ¬TooLong mem headSize (L - headSize) domSize ∧ ∃ rrp, Reported mem L qtype rrp ∧ a.addr = some (address mem qtype rrp) := by
  unfold readResponse at h
  by_cases hr : flags mem &&& drcode ≠ 0
  · rw [if_pos hr] at h
    cases h
  · rw [if_neg hr] at h
    by_cases ha : ¬HasAnswers mem
    · rw [if_pos ha] at h
      cases h
    · rw [if_neg ha] at h
      refine ⟨not_not.mp ha, ?_⟩
      split at h
      · cases h
      · cases h
      · next u hu =>
        obtain ⟨⟨k, a'⟩, hrec, hk⟩ := Option.map_eq_some_iff.mp h
        obtain ⟨-, hl, hret⟩ := unpackDomain_eq_some hu
        rw [hret] at hrec
        obtain ⟨hpos, haddr⟩ := records_address hrec
        by_cases h0 : 0 < k
        · dsimp only at hk
          rw [if_pos h0] at hk
          obtain ⟨-, rfl⟩ := Prod.mk.inj hk
          obtain ⟨rrp, hf⟩ := hpos.mp h0
          exact ⟨hl, rrp, hf, haddr rrp hf⟩
        · dsimp only at hk
          rw [if_neg h0] at hk
          cases hk

/-- Such a record is reported. -/
theorem readResponse_of_reported {rrp : ℕ} (ans : Answer) (ha : HasAnswers mem) (hends : ResponseEnds mem L)
    (hl : ¬TooLong mem headSize (L - headSize) domSize) (hf : Reported mem L qtype rrp) :
    ∃ fuel a, readResponse mem L qtype fuel ans = some (true, a) := by
  obtain ⟨u, hu, hret⟩ := unpackDomain_of_ends hends.1 hl le_rfl
  obtain ⟨⟨k, a⟩, hrec⟩ := records_isSome qtype 0 { ans with domCname := 0 :: ans.domCname.drop 1 }
    (hends.2 hl) (le_refl (0x4002 + domSize))
  have hpos : 0 < k := (records_address hrec).1.mpr ⟨rrp, hf⟩
  refine ⟨0x4002 + domSize, a, ?_⟩
  unfold readResponse
  rw [if_neg (not_not.mpr ha.1), if_neg (not_not.mpr ha), hu]
  dsimp only
  rw [hret, hrec, Option.map_some]
  dsimp only
  rw [if_pos hpos]

/-- A reply of 32 bytes for the name `a`: its answer, of type A and class IN, has no data. -/
def emptyAnswer : ℕ → Byte :=
  Mem.put (fun _ => 0) 2 [0x80, 0, 0, 1, 0, 1, 0, 0, 0, 0, 1, 97, 0, 0, 1, 0, 1, 1, 97, 0, 0, 1, 0, 1, 0, 0, 0, 0, 0, 0]

/-- Nothing is known of the name. -/
def noAnswer : Answer where
  domTtl := 0
  domErrno := 0
  domCname := []
  domA4list := fun _ => []
  domA6list := fun _ => []

end Watt32.Dns
