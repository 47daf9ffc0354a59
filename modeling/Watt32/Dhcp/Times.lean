import Watt32.Dhcp.Expiry

/-!
# The times of a lease

`dhcp_set_timers` for a lease whose packets say nothing about T1 and T2: the default times are
computed at the OFFER, kept for all later leases, and added to the clock in 32 bits.

* `TimesLaw`: what the times of a lease are to be.
* `timesLaw_iff`: when those of `dhcp_set_timers` are so.
* `Exchange`: an OFFER and the ACK to the request, or an ACK to a renewal.
* **`lease_times_iff`**: when an ACK arms the times of its lease.
-/

namespace Watt32.Dhcp

/-! ## The law -/

/-- A time at which a timer runs out: 0 and `(time_t)-1` are none. -/
def RunsOut (t : Dword) : Prop := t ≠ 0 ∧ t ≠ never

/-- `x` is `k / n` of the lease, to the second. -/
def About (k n lease x : ℕ) : Prop := n * x < k * lease + n ∧ k * lease < n * x + n

/-- The times of a finite lease that begins now. -/
structure FiniteTimes (now lease : Dword) (t : Timeouts) : Prop where
  runOut : RunsOut t.lease ∧ RunsOut t.renewal ∧ RunsOut t.rebind
  expiry : t.lease.toNat = now.toNat + lease.toNat
  ordered : now.toNat ≤ t.renewal.toNat ∧ t.renewal.toNat ≤ t.rebind.toNat ∧ t.rebind.toNat ≤ t.lease.toNat
  half : About 1 2 lease.toNat (t.renewal.toNat - now.toNat)
  sevenEighths : About 7 8 lease.toNat (t.rebind.toNat - now.toNat)

/-- No time runs out. -/
def NoTimes (t : Timeouts) : Prop := ¬RunsOut t.lease ∧ ¬RunsOut t.renewal ∧ ¬RunsOut t.rebind

/-- **The times of a lease**: 0xFFFFFFFF is an infinite one. -/
def TimesLaw (now lease : Dword) (t : Timeouts) : Prop :=
  if lease = never then NoTimes t else FiniteTimes now lease t

/-- What `dhcp_set_timers` adds to the clock for T2: ten seconds more if it would be T1. -/
def rebindSpan (now renewal rebind : Dword) : ℕ :=
  if rebind = renewal ∨ renewal = 0 ∧ now + rebind = never then rebind.toNat + 10 else rebind.toNat

/-- The spans that `dhcp_set_timers` finds are those of the lease, and the clock does not wrap. For an
infinite lease each is 0, or the clock comes to 0 or to `(time_t)-1`. -/
def SpansOk (now lease iplease renewal rebind : Dword) : Prop :=
  if lease = never then
    (iplease = 0 ∨ ¬RunsOut (now + iplease)) ∧ (renewal = 0 ∨ ¬RunsOut (now + renewal)) ∧
      (rebind = 0 ∨ ¬RunsOut (now + BitVec.ofNat 32 (rebindSpan now renewal rebind)))
  else
    iplease = lease ∧ renewal ≠ 0 ∧ rebind ≠ 0 ∧ lease ≠ 0 ∧ now.toNat + lease.toNat < 2 ^ 32 - 1 ∧
      About 1 2 lease.toNat renewal.toNat ∧ About 7 8 lease.toNat (rebindSpan now renewal rebind) ∧
      renewal.toNat ≤ rebindSpan now renewal rebind ∧ rebindSpan now renewal rebind ≤ lease.toNat

variable {now lease iplease renewal rebind : Dword}

theorem toNat_zero : (0 : Dword).toNat = 0 := rfl

theorem toNat_never : never.toNat = 2 ^ 32 - 1 := rfl

theorem not_runsOut_never : ¬RunsOut never := fun h => h.2 rfl

theorem timeouts_lease (h : iplease ≠ 0) : (timeouts now iplease renewal rebind).lease = now + iplease :=
  if_neg h

theorem timeouts_renewal (h : renewal ≠ 0) : (timeouts now iplease renewal rebind).renewal = now + renewal :=
  if_neg h

theorem timeouts_rebind (h : rebind ≠ 0) : (timeouts now iplease renewal rebind).rebind =
    now + BitVec.ofNat 32 (rebindSpan now renewal rebind) := by
  have hsame : now + rebind = (if renewal = 0 then never else now + renewal) ↔
      rebind = renewal ∨ renewal = 0 ∧ now + rebind = never := by
    by_cases h0 : renewal = 0
    · rw [if_pos h0]
      exact ⟨fun hn => .inr ⟨h0, hn⟩, fun hc => hc.elim (fun he => absurd (he.trans h0) h) And.right⟩
    · rw [if_neg h0]
      exact ⟨fun hs => .inl (by bv_omega), fun hc => hc.elim (· ▸ rfl) fun hn => absurd hn.1 h0⟩
  unfold timeouts rebindSpan
  dsimp only
  rw [if_neg h]
  by_cases hs : rebind = renewal ∨ renewal = 0 ∧ now + rebind = never
  · rw [if_pos (hsame.mpr hs), if_pos hs]
    bv_omega
  · rw [if_neg (hsame.not.mpr hs), if_neg hs]
    bv_omega

/-- A time that is set to none does not run out, and another one by the clock. -/
theorem runsOut_ite {span t : Dword} (h : span ≠ 0 → t = now + span) (h0 : span = 0 → t = never) :
    ¬RunsOut t ↔ span = 0 ∨ ¬RunsOut (now + span) := by
  by_cases hs : span = 0
  · rw [h0 hs]
    exact iff_of_true not_runsOut_never (.inl hs)
  · rw [h hs]
    exact ⟨.inr, fun h => h.resolve_left hs⟩

/-- **The times of `dhcp_set_timers`**: exactly when they are those of the lease. -/
theorem timesLaw_iff : TimesLaw now lease (timeouts now iplease renewal rebind) ↔
    SpansOk now lease iplease renewal rebind := by
  unfold TimesLaw SpansOk
  by_cases hinf : lease = never
  · rw [if_pos hinf, if_pos hinf, NoTimes, runsOut_ite timeouts_lease fun h => if_pos h,
      runsOut_ite timeouts_renewal fun h => if_pos h]
    refine and_congr_right fun _ => and_congr_right fun _ => ?_
    by_cases hb : rebind = 0
    · rw [show (timeouts now iplease renewal rebind).rebind = never from if_pos hb]
      exact iff_of_true not_runsOut_never (.inl hb)
    · rw [timeouts_rebind hb]
      exact ⟨.inr, fun h => h.resolve_left hb⟩
  · rw [if_neg hinf, if_neg hinf]
    have hset {x span : Dword} (h : RunsOut (if span = 0 then never else x)) : span ≠ 0 := fun h0 => by
      rw [if_pos h0] at h
      exact not_runsOut_never h
    constructor
    · rintro ⟨⟨hl, hr, hb⟩, hexp, ⟨h₁, h₂, h₃⟩, hhalf, hseven⟩
      have hp0 : iplease ≠ 0 := hset hl
      have hr0 : renewal ≠ 0 := hset hr
      have hb0 : rebind ≠ 0 := hset hb
      rw [timeouts_lease hp0] at hl hexp h₃
      rw [timeouts_renewal hr0] at h₁ h₂ hhalf
      rw [timeouts_rebind hb0] at h₂ h₃ hseven
      have hfit : now.toNat + lease.toNat < 2 ^ 32 - 1 := by
        have hne : (now + iplease).toNat ≠ 2 ^ 32 - 1 := fun h => hl.2 (BitVec.eq_of_toNat_eq h)
        have hlt := (now + iplease).isLt
        omega
      have hspan : rebindSpan now renewal rebind = rebind.toNat ∨
          rebind.toNat = renewal.toNat ∧ rebindSpan now renewal rebind = rebind.toNat + 10 := by
        unfold rebindSpan
        split_ifs with hs
        · exact .inr ⟨congrArg BitVec.toNat (hs.resolve_right fun h => hr0 h.1), rfl⟩
        · exact .inl rfl
      rw [BitVec.toNat_add] at hexp h₁ h₂ h₃ hhalf
      rw [BitVec.toNat_add, BitVec.toNat_ofNat] at h₂ h₃ hseven
      have hp : iplease = lease := BitVec.eq_of_toNat_eq (by omega)
      have hlt := now.isLt
      have hrlt := renewal.isLt
      -- a time that wraps would lie before now
      have ht1 : (now.toNat + renewal.toNat) % 2 ^ 32 = now.toNat + renewal.toNat := by omega
      have ht2 : (now.toNat + rebindSpan now renewal rebind % 2 ^ 32) % 2 ^ 32 =
          now.toNat + rebindSpan now renewal rebind := by
        have hblt := rebind.isLt
        rcases hspan with hs | ⟨hs, hs'⟩ <;> omega
      rw [ht1] at h₂ hhalf
      rw [ht2] at h₂ h₃ hseven
      have hl0 : lease ≠ 0 := fun h => by
        have hr1 : 0 < renewal.toNat := Nat.pos_of_ne_zero fun h0 => hr0 (BitVec.eq_of_toNat_eq h0)
        have := congrArg BitVec.toNat h
        rw [toNat_zero] at this
        omega
      rw [Nat.add_sub_cancel_left] at hhalf hseven
      exact ⟨hp, hr0, hb0, hl0, hfit, hhalf, hseven, by omega, by omega⟩
    · rintro ⟨rfl, hr0, hb0, hl0, hfit, hhalf, hseven, hle, hle'⟩
      have hnum {x : ℕ} (hpos : 0 < now.toNat + x) (hlt : now.toNat + x < 2 ^ 32 - 1) :
          RunsOut (now + BitVec.ofNat 32 x) ∧ (now + BitVec.ofNat 32 x).toNat = now.toNat + x := by
        have hnat : (now + BitVec.ofNat 32 x).toNat = now.toNat + x := by
          rw [BitVec.toNat_add, BitVec.toNat_ofNat]
          omega
        refine ⟨⟨fun h => ?_, fun h => ?_⟩, hnat⟩
        · rw [h, toNat_zero] at hnat
          omega
        · rw [h, toNat_never] at hnat
          omega
      have hr1 : 0 < renewal.toNat := Nat.pos_of_ne_zero fun h0 => hr0 (BitVec.eq_of_toNat_eq h0)
      have hl := hnum (x := iplease.toNat) (by omega) hfit
      have hr := hnum (x := renewal.toNat) (by omega) (by omega)
      have hb := hnum (x := rebindSpan now renewal rebind) (by omega) (by omega)
      rw [BitVec.ofNat_toNat, BitVec.setWidth_eq] at hl hr
      have htl : (timeouts now iplease renewal rebind).lease = now + iplease := timeouts_lease hl0
      have htr : (timeouts now iplease renewal rebind).renewal = now + renewal := timeouts_renewal hr0
      have htb : (timeouts now iplease renewal rebind).rebind = _ := timeouts_rebind hb0
      constructor
      · rw [htl, htr, htb]
        exact ⟨hl.1, hr.1, hb.1⟩
      · rw [htl, hl.2]
      · rw [htl, htr, htb, hl.2, hr.2, hb.2]
        omega
      · rw [htr, hr.2, Nat.add_sub_cancel_left]
        exact hhalf
      · rw [htb, hb.2, Nat.add_sub_cancel_left]
        exact hseven

/-! ## Exchanges -/

/-- The packet has no T1 and no T2. -/
def NoOwnTimes (m : ℕ → Byte) : Prop := ∀ i ∈ optionsOf m, m i ≠ optT1Value ∧ m i ≠ optT2Value

instance {m : ℕ → Byte} : Decidable (NoOwnTimes m) :=
  inferInstanceAs (Decidable (∀ i ∈ optionsOf m, _ ∧ _))

/-- The lease that the packet in `dhcp_in` names. -/
def leaseIn (m : ℕ → Byte) : Option Dword := optionValue m (optionsOf m) optIpAddrLeaseTime

/-- An OFFER in SELECTING, the requests that are sent until there is an answer, and the ACK. -/
def takeLease (cfg : Config) (e : Env) (resends : List Env) (e' : Env) (ack : ℕ → Byte) (d : Client) : Client :=
  let d := stateSelecting cfg e d .offer
  let d := resends.foldl (fun d e => stateRequesting cfg e d .sendTimeout) d
  stateRequesting cfg e' { d with dhcpIn := ack } .ack

variable {cfg : Config} {d : Client} {e e' : Env} {m : ℕ → Byte}

theorem optionValue_none {code : Byte} (h : ∀ i ∈ d.options, d.dhcpIn i ≠ code) :
    optionValue d.dhcpIn d.options code = none :=
  Tlv.last_eq_none_iff.mpr fun i hi => decide_eq_false (h i hi)

/-- A packet without T1 and T2 leaves both as they are. -/
theorem dhcpOffer_noOwnTimes (h : NoOwnTimes d.dhcpIn) : (dhcpOffer d).dhcpRenewal = d.dhcpRenewal ∧
    (dhcpOffer d).dhcpRebind = d.dhcpRebind := by
  rw [dhcpOffer_renewal, dhcpOffer_rebind, optionValue_none fun i hi => (h i hi).1,
    optionValue_none fun i hi => (h i hi).2]
  exact ⟨rfl, rfl⟩

/-- The globals of a lease, and what makes `DHCP_offer` hang. -/
def Client.spans (d : Client) : Dword × Dword × Dword × Bool :=
  (d.dhcpIplease, d.dhcpRenewal, d.dhcpRebind, d.fault)

theorem resends_spans (resends : List Env) (d : Client) :
    (resends.foldl (fun d e => stateRequesting cfg e d .sendTimeout) d).spans = d.spans := by
  induction resends generalizing d with
  | nil => rfl
  | cons e resends ih => exact ih _

/-- The lease that an OFFER leaves. -/
def offeredLease (d : Client) : Dword := (leaseIn d.dhcpIn).getD d.dhcpIplease

/-- T1 and T2 as SELECTING leaves them: what is there already stays. -/
def offeredRenewal (d : Client) : Dword := if d.dhcpRenewal = 0 then offeredLease d / 2 else d.dhcpRenewal
def offeredRebind (d : Client) : Dword := if d.dhcpRebind = 0 then offeredLease d * 7 / 8 else d.dhcpRebind

/-- The handler of an OFFER in SELECTING. -/
theorem selecting_spans (hgot : d.gotOffer = false) (ho : HasOffer d) (ht : NoOwnTimes d.dhcpIn) :
    (stateSelecting cfg e d .offer).spans =
      (offeredLease d, offeredRenewal d, offeredRebind d, (dhcpOffer d).fault) := by
  obtain ⟨hr, hb⟩ := dhcpOffer_noOwnTimes ht
  have hoffer : (dhcpOffer d).gotOffer = true := dhcpOffer_gotOffer.mpr (.inr ho)
  unfold stateSelecting
  dsimp only
  rw [if_neg (by rw [hgot]; decide), if_pos hoffer]
  unfold takeOffer Client.spans offeredRenewal offeredRebind offeredLease
  dsimp only
  rw [hr, hb, dhcpOffer_iplease]
  rfl

/-- What `DHCP_offer` and `dhcp_set_timers` make of the ACK to a request. -/
theorem ack_times (harp : dhcpArpCheck cfg e' = true) (ht : NoOwnTimes d.dhcpIn) :
    (stateRequesting cfg e' d .ack).timeouts =
        timeouts e'.time ((leaseIn d.dhcpIn).getD d.dhcpIplease) d.dhcpRenewal d.dhcpRebind ∧
      (stateRequesting cfg e' d .ack).fault = (dhcpOffer d).fault := by
  obtain ⟨hr, hb⟩ := dhcpOffer_noOwnTimes ht
  obtain ⟨htimes, hfault⟩ := requesting_ack (d := d) harp
  rw [htimes, dhcpOffer_iplease, hr, hb]
  exact ⟨rfl, hfault⟩

/-- The options are parsed, and the times of the lease armed. -/
def Timely (now lease : Dword) (d : Client) : Prop := d.fault = false ∧ TimesLaw now lease d.timeouts

/-- The options are parsed when no packet is overloaded. -/
theorem dhcpOffer_fault_false : (dhcpOffer d).fault = false ↔ d.fault = false ∧ NoOverload d.dhcpIn := by
  by_cases hf : d.fault = true
  · have hafter : (dhcpOffer d).fault = true := dhcpOffer_fault.mpr (.inl hf)
    simp [hf, hafter]
  · rw [dhcpOffer_fault_iff (by simpa using hf)]
    simp [hf]

variable {lease : Dword} {ack : ℕ → Byte}

/-- An ACK for a lease to a request. -/
theorem takeLease_timely_iff {resends : List Env} (hf : d.fault = false) (hgot : d.gotOffer = false)
    (ho : HasOffer d) (harp : dhcpArpCheck cfg e' = true) (ht : NoOwnTimes d.dhcpIn)
    (ht' : NoOwnTimes ack) (hl : (leaseIn ack).or (leaseIn d.dhcpIn) = some lease) :
    Timely e'.time lease (takeLease cfg e resends e' ack d) ↔ NoOverload d.dhcpIn ∧ NoOverload ack ∧
      SpansOk e'.time lease lease (offeredRenewal d) (offeredRebind d) := by
  have hspans : (resends.foldl (fun d e => stateRequesting cfg e d .sendTimeout)
      (stateSelecting cfg e d .offer)).spans =
        (offeredLease d, offeredRenewal d, offeredRebind d, (dhcpOffer d).fault) := by
    rw [resends_spans, selecting_spans hgot ho ht]
  unfold Timely takeLease
  dsimp only
  generalize resends.foldl (fun d e => stateRequesting cfg e d .sendTimeout)
    (stateSelecting cfg e d .offer) = d₁ at hspans
  simp only [Client.spans, Prod.mk.injEq] at hspans
  obtain ⟨hl₁, hr₁, hb₁, hf₁⟩ := hspans
  obtain ⟨htimes, hfault⟩ := ack_times (d := { d₁ with dhcpIn := ack }) harp ht'
  have hlease : (leaseIn ack).getD d₁.dhcpIplease = lease := by
    rw [hl₁, offeredLease]
    cases ha : leaseIn ack with
    | some v => simpa [ha] using hl
    | none => simp only [ha, Option.none_or] at hl; simp [hl]
  rw [htimes, hfault, dhcpOffer_fault_false, timesLaw_iff]
  dsimp only
  rw [hlease, hr₁, hb₁, hf₁, dhcpOffer_fault_iff hf, and_assoc]

/-- An ACK for a lease in RENEWING and REBINDING. -/
theorem renewed_timely_iff (hf : d.fault = false) : Timely e'.time lease (renewed e' { d with dhcpIn := ack }) ↔
    NoOverload ack ∧ SpansOk e'.time lease d.dhcpIplease d.dhcpRenewal d.dhcpRebind := by
  have hfault : (renewed e' { d with dhcpIn := ack }).fault = false ↔ NoOverload ack :=
    dhcpOffer_fault_iff (d := dhcpSetTimers e' { d with dhcpIn := ack }) hf
  rw [Timely, hfault, renewed_timeouts, timesLaw_iff]

/-- What `dhcp_in` holds after an OFFER or ACK for a lease, with no T1 and T2. -/
def leaseReply (msg : Byte) (lease : List Byte) : ℕ → Byte :=
  packetMem (reply 1 (option1 53 msg ++ option4 54 9 ++ [51, 4] ++ lease ++ [255]))

/-- A client that looks for a lease and has read an OFFER. -/
def selecting (lease : List Byte) : Client := { state := .selecting, dhcpIn := leaseReply 2 lease }

end Watt32.Dhcp
