import Watt32.Lib.Run
import Watt32.Tcp.Cancel

/-!
# Round-trip times in range

The three writers of `vj_sa`, `vj_sd` and `rto`: `tcp_rtt_win`, the end of `_tcp_send` and the label `quench_it`
of `_tcp_cancel`.

* `Estimate`: the three numbers over the integers, with what the writers do to them there.
* `TimingOp`: the writers, and `karn_count` set by others.
* `StepInRange`: a step in words is the step over the integers, and `rto` is between `tcp_RTO_BASE` and its
  maximum.
* `Bounded`: the invariant.
* **`rtt_range_iff`**: which runs stay in range.
-/

namespace Watt32.Tcp

open Machine

/-! ## Over the integers -/

/-- `vj_sa`, `vj_sd` and `rto`. -/
structure Estimate where
  vjSa : ℤ
  vjSd : ℤ
  rto : ℤ

/-- The estimate of a control block. -/
def Rtt.estimate (r : Rtt) : Estimate := ⟨r.vjSa.toNat, r.vjSd.toNat, r.rto.toNat⟩

/-- A round trip that took `dT`: the averages move an eighth and a quarter of the way, up to their maxima. A
negative `dT` only sets `rto`. -/
def Estimate.smooth (cfg : Config) (x : Estimate) (dT : ℤ) : Estimate :=
  let x := if 0 ≤ dT then
      let err := dT - x.vjSa / 8
      { x with
        vjSa := min cfg.maxVjsa.toNat (x.vjSa + err)
        vjSd := min cfg.maxVjsd.toNat (x.vjSd + (|err| - x.vjSd / 4)) }
    else x
  { x with rto := cfg.rtoBase.toNat + (x.vjSa / 4 + x.vjSd) / 2 }

/-- The back-off. -/
def Estimate.backOff (cfg : Config) (x : Estimate) : Estimate :=
  { x with rto := if x.rto ≠ 0 then x.rto * 3 / 2 else 2 * cfg.rtoAdd.toNat }

/-- A source quench. -/
def Estimate.quench (x : Estimate) : Estimate := ⟨4 * x.vjSa, 4 * x.vjSd, 4 * x.rto⟩

/-! ## The writers -/

/-- `tcp_rtt_win`, the end of `_tcp_send` when all went out, `quench_it`, and `karn_count` set elsewhere. -/
inductive TimingOp
  | window (e : Env)
  | sent (e : Env) (s : TcpSocket) (sendTotLen : ℤ)
  | quench
  | karn (count : Byte)

/-- One step. -/
def stepTiming (cfg : Config) (r : Rtt) : TimingOp → Rtt
  | .window e => rttWin { e with cfg := cfg } r
  | .sent e s n => sendTimers { e with cfg := cfg } { s with rtt := r } n
  | .quench => quenchIt r
  | .karn count => { r with karnCount := count }

/-- The time of the round trip that `tcp_rtt_win` takes. -/
def roundTrip (e : Env) (r : Rtt) : Dword := setTimeout e 0 - r.vjLast

/-- The step over the integers. -/
def idealTiming (cfg : Config) (r : Rtt) (x : Estimate) : TimingOp → Estimate
  | .window e => if r.karnCount = 2 ∨ r.vjLast = 0 then x else x.smooth cfg (roundTrip e r).toInt
  | .sent _ _ _ => if r.karnCount = 2 then x.backOff cfg else x
  | .quench => x.quench
  | .karn _ => x

/-- The maximum of `rto`: what the maxima of `vj_sa` and `vj_sd` give. -/
def Config.rtoMax (cfg : Config) : ℕ := cfg.rtoBase.toNat + (cfg.maxVjsa.toNat / 4 + cfg.maxVjsd.toNat) / 2

/-- `rto` is in range. -/
structure RtoInRange (cfg : Config) (r : Rtt) : Prop where
  base : cfg.rtoBase.toNat ≤ r.rto.toNat
  max : r.rto.toNat ≤ cfg.rtoMax

/-- Nothing overflows in the step, and `rto` is in range after it. -/
structure StepInRange (cfg : Config) (r : Rtt) (op : TimingOp) : Prop where
  exact : (stepTiming cfg r op).estimate = idealTiming cfg r r.estimate op
  range : RtoInRange cfg (stepTiming cfg r op)

/-- The step leaves `rto` below its maximum: a back-off adds a half, a quench takes four times, and a clock that
went back takes the averages as they are. -/
def StaysBelow (cfg : Config) (r : Rtt) : TimingOp → Prop
  | .window e => r.karnCount = 2 ∨ r.vjLast = 0 ∨ 0 ≤ (roundTrip e r).toInt ∨
      cfg.rtoBase.toNat + (r.vjSa.toNat / 4 + r.vjSd.toNat) / 2 ≤ cfg.rtoMax
  | .sent _ _ _ => r.karnCount = 2 → r.rto.toNat * 3 / 2 ≤ cfg.rtoMax
  | .quench => 4 * r.rto.toNat ≤ cfg.rtoMax
  | .karn _ => True

/-- The configured times: `tcp_RTO_BASE` is not 0, and the maximum of `rto` is below 2.7 hours. -/
structure Config.Sane (cfg : Config) : Prop where
  base : 0 < cfg.rtoBase.toNat
  max : 220 * cfg.rtoMax ≤ 2 ^ 31

/-- The invariant: `rto` is in range and bounds the averages. -/
structure Bounded (cfg : Config) (r : Rtt) : Prop extends RtoInRange cfg r where
  averages : r.vjSa.toNat + 4 * r.vjSd.toNat ≤ 220 * r.rto.toNat

/-! ## One step -/

section Step

variable {cfg : Config} {r : Rtt} {e : Env}

/-- `tcp_rtt_win` on the estimate. -/
theorem rttWin_estimate : (rttWin e r).estimate =
    if r.karnCount = 2 ∨ r.vjLast = 0 then r.estimate else (updateRto e.cfg r (roundTrip e r)).estimate := by
  by_cases hk : r.karnCount = 2
  · rw [if_pos (.inl hk)]
    unfold rttWin
    rw [if_pos hk]
    dsimp only
    split_ifs <;> rfl
  · by_cases hl : r.vjLast = 0
    · rw [if_pos (.inr hl)]
      unfold rttWin
      rw [if_neg hk, if_neg (not_not.mpr hl)]
      dsimp only
      split_ifs <;> rfl
    · rw [if_neg (not_or.mpr ⟨hk, hl⟩)]
      unfold rttWin roundTrip
      rw [if_neg hk, if_pos hl]
      dsimp only
      split_ifs <;> rfl

theorem sendTimers_estimate (s : TcpSocket) (n : ℤ) : (sendTimers e s n).estimate =
    if s.rtt.karnCount = 2 then
      { s.rtt.estimate with
        rto := (if s.rtt.rto ≠ 0 then s.rtt.rto * 3 / 2 else 2 * e.cfg.rtoAdd).toNat }
    else s.rtt.estimate := by
  unfold sendTimers
  dsimp only
  split_ifs <;> rfl

theorem shiftLeft_toNat {x : Dword} (h : 4 * x.toNat < 2 ^ 32) : (x <<< 2).toNat = 4 * x.toNat := by
  rw [BitVec.toNat_shiftLeft, Nat.shiftLeft_eq]
  omega

theorem sshift_toNat (x : Dword) (n : ℕ) : (x >>> n).toNat = x.toNat / 2 ^ n := by
  rw [BitVec.toNat_ushiftRight, Nat.shiftRight_eq_div_pow]

/-- What an averaged word holds: `avg` with a term `err` that is taken as `err - avg / 2 ^ k`. -/
theorem average_toNat {avg err : Dword} {k : ℕ} (h : avg.toNat + err.toNat < 2 ^ 32) :
    (avg + (err - avg >>> k)).toNat = avg.toNat + err.toNat - avg.toNat / 2 ^ k := by
  have hle : avg.toNat / 2 ^ k ≤ avg.toNat := Nat.div_le_self ..
  rw [BitVec.toNat_add, BitVec.toNat_sub, sshift_toNat]
  generalize avg.toNat / 2 ^ k = q at *
  omega

theorem capped_toNat (cap x : Dword) : (if cap < x then cap else x).toNat = min cap.toNat x.toNat := by
  split_ifs with h
  · exact (min_eq_left (BitVec.lt_def.mp h).le).symm
  · exact (min_eq_right (BitVec.not_lt.mp h)).symm

theorem newRto_toNat {base sa sd : Dword} (h : base.toNat + (sa.toNat / 4 + sd.toNat) / 2 < 2 ^ 31)
    (hsum : sa.toNat / 4 + sd.toNat < 2 ^ 32) :
    (base + (sa >>> 2 + sd) >>> 1).toNat = base.toNat + (sa.toNat / 4 + sd.toNat) / 2 := by
  have hin : (sa >>> 2 + sd).toNat = sa.toNat / 4 + sd.toNat := by
    rw [BitVec.toNat_add, sshift_toNat]
    exact Nat.mod_eq_of_lt hsum
  rw [BitVec.toNat_add, sshift_toNat, hin]
  exact Nat.mod_eq_of_lt (by omega)

/-- The averages of a bounded estimate are small. -/
theorem Bounded.small (hcfg : cfg.Sane) (hb : Bounded cfg r) :
    r.vjSa.toNat ≤ 2 ^ 31 ∧ r.vjSd.toNat ≤ 2 ^ 29 ∧ cfg.rtoMax < 2 ^ 24 := by
  have h₁ := hb.averages
  have h₂ := hb.max
  have h₃ := hcfg.max
  omega

/-- The difference of a time and an eighth of an average. -/
theorem err_toInt {dT sa : Dword} (hdT : dT.toNat < 2 ^ 31) (hsa : sa.toNat / 8 < 2 ^ 29) :
    (dT - sa >>> 3).toInt = dT.toNat - (sa.toNat / 8 : ℕ) := by
  rw [BitVec.toInt_eq_toNat_cond, BitVec.toNat_sub, sshift_toNat]
  change sa.toNat / 2 ^ 3 < 2 ^ 29 at hsa
  change _ = (dT.toNat : ℤ) - (sa.toNat / 2 ^ 3 : ℕ)
  generalize sa.toNat / 2 ^ 3 = q at *
  split_ifs <;> omega

/-- The absolute value, which is a word. -/
theorem abs_toNat (err : Dword) :
    ((if err.toInt < 0 then -err else err).toNat : ℤ) = |err.toInt| := by
  have hcond := BitVec.toInt_eq_toNat_cond err
  have hlt := err.isLt
  rcases lt_or_ge err.toInt 0 with hneg | hge
  · rw [if_pos hneg, BitVec.toNat_neg, abs_of_neg hneg]
    split_ifs at hcond <;> omega
  · rw [if_neg hge.not_gt, abs_of_nonneg hge]
    split_ifs at hcond <;> omega

/-- A capped average over the integers is one over the naturals. -/
theorem min_average (m avg d k : ℕ) :
    min (m : ℤ) (avg + ((d : ℤ) - (avg / k : ℕ))) = (min m (avg + d - avg / k) : ℕ) := by
  have hle : avg / k ≤ avg + d := (Nat.div_le_self avg k).trans (Nat.le_add_right _ _)
  have hcast : ((avg + d - avg / k : ℕ) : ℤ) = avg + ((d : ℤ) - (avg / k : ℕ)) := by
    rw [Nat.cast_sub hle, Nat.cast_add]
    exact add_sub_assoc _ _ _
  rw [Nat.cast_min, hcast]

/-- **A round trip** in words is one over the integers. -/
theorem updateRto_smooth (hcfg : cfg.Sane) (hb : Bounded cfg r) (dT : Dword) :
    (updateRto cfg r dT).estimate = r.estimate.smooth cfg dT.toInt := by
  obtain ⟨hsa, hsd, hmax⟩ := hb.small hcfg
  unfold Config.rtoMax at hmax
  by_cases hpos : 0 ≤ dT.toInt
  · have hlt : dT.toNat < 2 ^ 31 := by
      have hdT := BitVec.toInt_eq_toNat_cond dT
      clear hcfg hb hsa hsd hmax
      split_ifs at hdT <;> omega
    have hnat : dT.toInt = dT.toNat := BitVec.toInt_eq_toNat_of_lt (by omega)
    obtain ⟨err, herr⟩ : ∃ err, dT - r.vjSa >>> 3 = err := ⟨_, rfl⟩
    have hq : r.vjSa.toNat / 8 < 2 ^ 29 := by clear hmax; omega
    have herrInt : err.toInt = dT.toNat - (r.vjSa.toNat / 8 : ℕ) := herr ▸ err_toInt hlt hq
    obtain ⟨abs, habs'⟩ : ∃ abs, (if err.toInt < 0 then -err else err) = abs := ⟨_, rfl⟩
    have habs : (abs.toNat : ℤ) = |err.toInt| := habs' ▸ abs_toNat err
    have habsLt : abs.toNat < 2 ^ 31 := by
      have : |err.toInt| < 2 ^ 31 := by
        rw [abs_lt, herrInt]
        clear hmax
        omega
      clear hmax
      omega
    have hsaNew : (r.vjSa + err).toNat = r.vjSa.toNat + dT.toNat - r.vjSa.toNat / 8 := by
      rw [← herr]
      exact average_toNat (by clear hmax; omega)
    have hsdNew : (r.vjSd + (abs - r.vjSd >>> 2)).toNat =
        r.vjSd.toNat + abs.toNat - r.vjSd.toNat / 4 := average_toNat (by clear hmax; omega)
    have hsaCap := capped_toNat cfg.maxVjsa (r.vjSa + err)
    have hsdCap := capped_toNat cfg.maxVjsd (r.vjSd + (abs - r.vjSd >>> 2))
    have hrto := @newRto_toNat cfg.rtoBase
      (if cfg.maxVjsa < r.vjSa + err then cfg.maxVjsa else r.vjSa + err)
      (if cfg.maxVjsd < r.vjSd + (abs - r.vjSd >>> 2) then cfg.maxVjsd
        else r.vjSd + (abs - r.vjSd >>> 2))
    have hsaLe := hsaCap.trans_le (min_le_left _ _)
    have hsdLe := hsdCap.trans_le (min_le_left _ _)
    have hsum : (if cfg.maxVjsa < r.vjSa + err then cfg.maxVjsa else r.vjSa + err).toNat / 4 +
        (if cfg.maxVjsd < r.vjSd + (abs - r.vjSd >>> 2) then cfg.maxVjsd
          else r.vjSd + (abs - r.vjSd >>> 2)).toNat ≤ cfg.maxVjsa.toNat / 4 + cfg.maxVjsd.toNat :=
      Nat.add_le_add (Nat.div_le_div_right hsaLe) hsdLe
    generalize cfg.maxVjsa.toNat / 4 + cfg.maxVjsd.toNat = top at hmax hsum
    have hnew := hrto (by clear hsa hsd hsaNew hsdNew hsaCap hsdCap hsaLe hsdLe; omega)
      (by clear hsa hsd hsaNew hsdNew hsaCap hsdCap hsaLe hsdLe; omega)
    rw [hsaNew] at hsaCap
    rw [hsdNew] at hsdCap
    rw [hsaCap, hsdCap] at hnew
    unfold updateRto Estimate.smooth Rtt.estimate
    rw [if_pos hpos, if_pos hpos]
    dsimp only
    rw [herr, habs', hnew, hsaCap, hsdCap]
    have herr' : dT.toInt - (r.vjSa.toNat : ℤ) / 8 = err.toInt := by
      rw [hnat, herrInt]
      rfl
    have hsaInt : min (cfg.maxVjsa.toNat : ℤ) (r.vjSa.toNat + (dT.toInt - r.vjSa.toNat / 8)) =
        (min cfg.maxVjsa.toNat (r.vjSa.toNat + dT.toNat - r.vjSa.toNat / 8) : ℕ) := by
      rw [hnat]
      exact min_average _ _ _ _
    have hsdInt : min (cfg.maxVjsd.toNat : ℤ) (r.vjSd.toNat +
        (|dT.toInt - r.vjSa.toNat / 8| - r.vjSd.toNat / 4)) =
        (min cfg.maxVjsd.toNat (r.vjSd.toNat + abs.toNat - r.vjSd.toNat / 4) : ℕ) := by
      rw [herr', ← habs]
      exact min_average _ _ _ _
    rw [hsaInt, hsdInt]
    push_cast
    rfl
  · have hrto := @newRto_toNat cfg.rtoBase r.vjSa r.vjSd (by omega) (by omega)
    unfold updateRto Estimate.smooth Rtt.estimate
    rw [if_neg hpos, if_neg hpos]
    dsimp only
    rw [hrto]
    push_cast
    rfl

theorem rtoInRange_iff : RtoInRange cfg r ↔
    (cfg.rtoBase.toNat : ℤ) ≤ r.estimate.rto ∧ r.estimate.rto ≤ cfg.rtoMax := by
  constructor
  · intro h
    exact ⟨Int.ofNat_le.mpr h.base, Int.ofNat_le.mpr h.max⟩
  · intro h
    exact ⟨Int.ofNat_le.mp h.1, Int.ofNat_le.mp h.2⟩

theorem bounded_iff : Bounded cfg r ↔
    RtoInRange cfg r ∧ r.estimate.vjSa + 4 * r.estimate.vjSd ≤ 220 * r.estimate.rto := by
  constructor
  · intro h
    refine ⟨h.toRtoInRange, ?_⟩
    have := h.averages
    unfold Rtt.estimate
    dsimp only
    omega
  · rintro ⟨h, havg⟩
    refine ⟨h, ?_⟩
    unfold Rtt.estimate at havg
    dsimp only at havg
    omega

variable {op : TimingOp}

/-- **The step in words** is the step over the integers. -/
theorem stepTiming_estimate (hcfg : cfg.Sane) (hb : Bounded cfg r) (hq : StaysBelow cfg r op) :
    (stepTiming cfg r op).estimate = idealTiming cfg r r.estimate op := by
  have hbase := hcfg.base
  obtain ⟨hsa, hsd, hmax⟩ := hb.small hcfg
  have hrto := hb.max
  cases op with
  | window e =>
    refine rttWin_estimate.trans ?_
    change _ = if r.karnCount = 2 ∨ r.vjLast = 0 then r.estimate else r.estimate.smooth cfg (roundTrip e r).toInt
    by_cases hk : r.karnCount = 2 ∨ r.vjLast = 0
    · rw [if_pos hk, if_pos hk]
    · rw [if_neg hk, if_neg hk]
      exact updateRto_smooth hcfg hb _
  | sent e s n =>
    refine (sendTimers_estimate _ _).trans ?_
    change (if r.karnCount = 2 then _ else r.estimate) = if r.karnCount = 2 then r.estimate.backOff cfg else r.estimate
    refine if_congr Iff.rfl ?_ rfl
    have hlow := hb.base
    have hne : r.rto ≠ 0 := by
      rintro h0
      rw [h0] at hlow
      exact absurd hlow hbase.not_ge
    have hnat : (r.rto * 3 / 2).toNat = r.rto.toNat * 3 / 2 := by
      have h3 : (3 : Dword).toNat = 3 := rfl
      have h2 : (2 : Dword).toNat = 2 := rfl
      rw [BitVec.toNat_udiv, BitVec.toNat_mul, h3, h2, Nat.mod_eq_of_lt (by omega)]
    have hne' : r.estimate.rto ≠ 0 := fun h0 => hne (BitVec.eq_of_toNat_eq (Int.ofNat_inj.mp h0))
    unfold Estimate.backOff
    rw [if_pos hne', if_pos hne, hnat]
    rfl
  | quench =>
    have havg := hb.averages
    change 4 * r.rto.toNat ≤ cfg.rtoMax at hq
    have hcap := hcfg.max
    unfold stepTiming quenchIt idealTiming Estimate.quench Rtt.estimate
    dsimp only
    rw [shiftLeft_toNat (by omega), shiftLeft_toNat (by omega), shiftLeft_toNat (by omega)]
    push_cast
    rfl
  | karn count => rfl

/-- Over the integers a step that stays below the maximum keeps the bounds. -/
theorem idealTiming_bounded (hcfg : cfg.Sane) (hb : Bounded cfg r) (hq : StaysBelow cfg r op) :
    let x := idealTiming cfg r r.estimate op
    (cfg.rtoBase.toNat : ℤ) ≤ x.rto ∧ x.rto ≤ cfg.rtoMax ∧ x.vjSa + 4 * x.vjSd ≤ 220 * x.rto := by
  have hbase := hcfg.base
  obtain ⟨hrange, havg⟩ := bounded_iff.mp hb
  obtain ⟨hlow, hhigh⟩ := rtoInRange_iff.mp hrange
  have hsa : 0 ≤ r.estimate.vjSa := Int.natCast_nonneg _
  have hsd : 0 ≤ r.estimate.vjSd := Int.natCast_nonneg _
  have hmax : (cfg.rtoMax : ℤ) = cfg.rtoBase.toNat + ((cfg.maxVjsa.toNat : ℤ) / 4 + cfg.maxVjsd.toNat) / 2 := by
    unfold Config.rtoMax
    push_cast
    rfl
  cases op with
  | window e =>
    by_cases hk : r.karnCount = 2 ∨ r.vjLast = 0
    · have hideal : idealTiming cfg r r.estimate (.window e) = r.estimate := if_pos hk
      rw [hideal]
      exact ⟨hlow, hhigh, havg⟩
    · have hideal : idealTiming cfg r r.estimate (.window e) = r.estimate.smooth cfg (roundTrip e r).toInt :=
        if_neg hk
      rw [hideal]
      unfold Estimate.smooth
      by_cases hpos : 0 ≤ (roundTrip e r).toInt
      · rw [if_pos hpos]
        dsimp only
        have herr := abs_nonneg ((roundTrip e r).toInt - r.estimate.vjSa / 8)
        omega
      · rw [if_neg hpos]
        have hq' := (hq.resolve_left fun h => hk (.inl h)).resolve_left fun h => hk (.inr h)
        have hback : (cfg.rtoBase.toNat : ℤ) + (r.estimate.vjSa / 4 + r.estimate.vjSd) / 2 ≤ cfg.rtoMax :=
          Int.ofNat_le.mpr (hq'.resolve_left hpos)
        dsimp only
        omega
  | sent e s n =>
    by_cases hk : r.karnCount = 2
    · have hideal : idealTiming cfg r r.estimate (.sent e s n) = r.estimate.backOff cfg := if_pos hk
      have hq' : r.estimate.rto * 3 / 2 ≤ cfg.rtoMax := Int.ofNat_le.mpr (hq hk)
      rw [hideal, Estimate.backOff, if_pos (by omega : r.estimate.rto ≠ 0)]
      dsimp only
      omega
    · have hideal : idealTiming cfg r r.estimate (.sent e s n) = r.estimate := if_neg hk
      rw [hideal]
      exact ⟨hlow, hhigh, havg⟩
  | quench =>
    have hq' : 4 * r.estimate.rto ≤ cfg.rtoMax := Int.ofNat_le.mpr hq
    change (cfg.rtoBase.toNat : ℤ) ≤ 4 * r.estimate.rto ∧ 4 * r.estimate.rto ≤ cfg.rtoMax ∧
      4 * r.estimate.vjSa + 4 * (4 * r.estimate.vjSd) ≤ 220 * (4 * r.estimate.rto)
    omega
  | karn count => exact ⟨hlow, hhigh, havg⟩

/-- A step that stays below the maximum keeps the invariant. -/
theorem Bounded.step (hcfg : cfg.Sane) (hb : Bounded cfg r) (hq : StaysBelow cfg r op) :
    Bounded cfg (stepTiming cfg r op) := by
  obtain ⟨hlow, hhigh, havg⟩ := idealTiming_bounded hcfg hb hq
  rw [← stepTiming_estimate hcfg hb hq] at hlow hhigh havg
  exact bounded_iff.mpr ⟨rtoInRange_iff.mpr ⟨hlow, hhigh⟩, havg⟩

/-- **One step** stays in range exactly if it stays below the maximum. -/
theorem stepInRange_iff (hcfg : cfg.Sane) (hb : Bounded cfg r) : StepInRange cfg r op ↔ StaysBelow cfg r op := by
  constructor
  · rintro ⟨hexact, hrange⟩
    have hhigh := (rtoInRange_iff.mp hrange).2
    rw [hexact] at hhigh
    cases op with
    | window e =>
      by_contra hq
      unfold StaysBelow at hq
      simp only [not_or] at hq
      obtain ⟨hk, hl, hneg, hmore⟩ := hq
      have hideal : idealTiming cfg r r.estimate (.window e) = r.estimate.smooth cfg (roundTrip e r).toInt :=
        if_neg (not_or.mpr ⟨hk, hl⟩)
      rw [hideal, Estimate.smooth, if_neg hneg] at hhigh
      exact hmore (Int.ofNat_le.mp hhigh)
    | sent e s n =>
      intro hk
      have hbase := hcfg.base
      have hlow := hb.base
      have hne : r.estimate.rto ≠ 0 := by
        intro h0
        have : r.rto.toNat = 0 := Int.ofNat_inj.mp h0
        omega
      have hideal : idealTiming cfg r r.estimate (.sent e s n) = r.estimate.backOff cfg := if_pos hk
      rw [hideal, Estimate.backOff, if_pos hne] at hhigh
      exact Int.ofNat_le.mp hhigh
    | quench => exact Int.ofNat_le.mp hhigh
    | karn count => trivial
  · intro hq
    exact ⟨stepTiming_estimate hcfg hb hq, (hb.step hcfg hq).toRtoInRange⟩

end Step

/-- **Round-trip times**: from a fresh control block on, whatever its `rto`, all states and steps of a run are in
range exactly if the first `rto` is and each step stays below the maximum. -/
theorem rtt_range_iff (cfg : Config) (hcfg : cfg.Sane) (r : Rtt) (hsa : r.vjSa = initVjsa) (hsd : r.vjSd = 0)
    (ops : List TimingOp) : RtoInRange cfg r ∧ Always (stepTiming cfg) (StepInRange cfg) r ops ↔
      RtoInRange cfg r ∧ Always (stepTiming cfg) (StaysBelow cfg) r ops := by
  refine and_congr_right fun hrange => ?_
  have hb : Bounded cfg r := by
    have hbase := hcfg.base
    have hlow := hrange.base
    have hinit : (initVjsa : Dword).toNat = 220 := rfl
    have hzero : (0 : Dword).toNat = 0 := rfl
    refine ⟨hrange, ?_⟩
    rw [hsa, hsd, hinit, hzero]
    omega
  refine always_iff_of_invariant (I := Bounded cfg) ?_ ?_ ops hb
  · intro r op hb hq
    exact hb.step hcfg hq
  · intro r op hb
    exact stepInRange_iff hcfg hb

/-- One source quench after `tcp_open`. -/
theorem rtt_range_quench : RtoInRange {} { rto := 1000 } ∧
    Always (stepTiming {}) (StepInRange {}) { rto := 1000 } [.quench] :=
  (rtt_range_iff {} ⟨by decide, by decide⟩ { rto := 1000 } rfl rfl [.quench]).mpr
    ⟨⟨by decide, by decide⟩, (by decide : 4 * (1000 : Dword).toNat ≤ Config.rtoMax {}), trivial⟩

/-- The third leaves the range, the fifteenth makes `rto` 0. -/
theorem rtt_range_lost : (run (stepTiming {}) { rto := 1000 } (List.replicate 15 .quench)).rto = 0 ∧
    ¬ Always (stepTiming {}) (StepInRange {}) { rto := 1000 } (List.replicate 15 .quench) := by
  refine ⟨by decide, ?_⟩
  intro h
  have hmax := h.2.2.1.range.max
  exact absurd hmax (by decide)

end Watt32.Tcp
