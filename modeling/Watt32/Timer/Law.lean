import Watt32.Timer.Clocks

/-!
# When a timer keeps its law

The values of `set_timeout` and the readings of the clock are compared as they are, so that a clock
that wraps between the two spoils a timer. Behind a midnight that `chk_timeout` has not noticed yet
the value of `set_timeout` is a day too low.

* `KeepsLaw`: the condition, with `NoWrap` and `Exact` for a date that is right.
* `law_iff_noWrap`, `not_law_of_behind`: the two cases.
* **`timerLaw_iff`**: the law holds exactly then.
-/

namespace Watt32.Timer

variable {src : Source} {d d₀ : Dates} {τ τ₀ : ℕ} {msec : Dword}

/-! ## The condition -/

/-- The set is not behind a midnight that the last call before it was not. -/
def Current (src : Source) (d₀ : Dates) (τ₀ : ℕ) : Prop := src.Daily → d₀.oldHour ≤ hourOf τ₀

instance {src : Source} {d₀ : Dates} {τ₀ : ℕ} : Decidable (Current src d₀ τ₀) :=
  inferInstanceAs (Decidable (_ → _))

/-- Neither the value nor a reading before half the range has passed since goes beyond 32 bits. -/
def NoWrap (src : Source) (r τ₀ : ℕ) (msec : Dword) : Prop :=
  r + src.increment msec < 2 ^ 32 ∧
    ∀ τ, τ₀ ≤ τ → InWindow src τ₀ msec τ → r + src.elapsed τ₀ τ < 2 ^ 32

/-- The value of the timer is not moved: a reading of 0 has no value of its own, and a period in
ticks is rounded. -/
def Exact (src : Source) (r : ℕ) (msec : Dword) : Prop :=
  match src with
  | .dayTime => ¬(r = 0 ∧ msec.toNat = 1)
  | .bios => msec.toNat ≠ 0 ∧ (msec.toNat ≤ 55 ∨ 55 ∣ msec.toNat)
  | _ => ¬(r = 0 ∧ msec.toNat = 0)

/-- **When the law holds**: the set is of the day of the last call, its value is exact, and the clock
does not wrap. Behind a midnight that is still to be noticed only a period of 0 can be kept: if the
value does not exceed the readings that can follow, with the day added or without. -/
def KeepsLaw (src : Source) (d₀ : Dates) (τ₀ : ℕ) (msec : Dword) : Prop :=
  if Current src d₀ τ₀ then
    NoWrap src (src.reading d₀ τ₀) τ₀ msec ∧ Exact src (src.reading d₀ τ₀) msec
  else msec.toNat = 0 ∧ ∀ b τ, Notices src d₀ τ₀ b → b ≤ τ → InWindow src τ₀ msec τ →
    notZero (src.reading d₀ τ₀ + src.increment msec) ≤
      (src.reading d₀ τ₀ + skew d₀ τ₀ b * src.day + src.elapsed τ₀ τ) % 2 ^ 32

/-- The clock does not stay, nor leap far. -/
theorem units_succ (hd : src.Daily) (τ : ℕ) : src.units (τ + 1) ≤ src.units τ + 135 := by
  rcases hd with rfl | rfl
  · rw [units_pit, units_pit]
    omega
  · change (τ + 1) / 65536 ≤ τ / 65536 + 135
    omega

/-- The last moment before the period has passed. -/
theorem exists_last (τ₀ : ℕ) (hd : src.Daily) (hm : 0 < msec.toNat) : ∃ τ, τ₀ ≤ τ ∧
    src.unitMs * src.elapsed τ₀ τ < msec.toNat ∧ msec.toNat ≤ src.unitMs * src.elapsed τ₀ (τ + 1) := by
  have hex : ∃ n, msec.toNat ≤ src.unitMs * src.elapsed τ₀ (τ₀ + n) := by
    unfold Source.elapsed
    rcases hd with rfl | rfl
    · refine ⟨103090749440 * msec.toNat, ?_⟩
      rw [units_pit, units_pit]
      change _ ≤ 1 * _
      omega
    · refine ⟨65536 * msec.toNat, ?_⟩
      change _ ≤ 55 * ((τ₀ + 65536 * msec.toNat) / 65536 - τ₀ / 65536)
      omega
  have hpos : Nat.find hex ≠ 0 := fun h0 => by
    have hspec := Nat.find_spec hex
    rw [h0, Nat.add_zero, Source.elapsed, Nat.sub_self, Nat.mul_zero] at hspec
    omega
  obtain ⟨n, hn⟩ := Nat.exists_eq_succ_of_ne_zero hpos
  refine ⟨τ₀ + n, by omega, not_le.mp (Nat.find_min hex (by omega)), ?_⟩
  have hspec := Nat.find_spec hex
  rwa [hn] at hspec

/-- A clock that is ahead by `D` does not come to the value in one step. -/
theorem le_of_ahead {r q D k k' : ℕ} (hD : 135 < D ∧ D < 2 ^ 31) (hk : k ≤ q) (hk' : q ≤ k')
    (hgap : k' ≤ k + 135) (h : notZero (r + q) ≤ (r + D + k') % 2 ^ 32) :
    notZero (r + q) ≤ (r + D + k) % 2 ^ 32 := by
  have hq : (r + D + k) / 2 ^ 32 = (r + q) / 2 ^ 32 ∨ (r + D + k) / 2 ^ 32 = (r + q) / 2 ^ 32 + 1 := by
    omega
  have hv := notZero_cases (r + q)
  rcases hq with hq | hq <;> omega

/-- A period in ticks is rounded down, but for the first. -/
theorem increment_bios (msec : Dword) : 55 < msec.toNat ∧ Source.bios.increment msec = msec.toNat / 55 ∨
    msec.toNat ≤ 55 ∧ Source.bios.increment msec = 1 := by
  have h55 : 55 < msec ↔ 55 < msec.toNat := BitVec.lt_def
  unfold Source.increment
  by_cases h : 55 < msec
  · exact .inl ⟨h55.mp h, if_pos h⟩
  · exact .inr ⟨not_lt.mp (h55.not.mp h), if_neg h⟩

/-- Behind a midnight to be noticed, a period that is not 0 ends early. -/
theorem not_law_of_behind (hcur : ¬Current src d₀ τ₀) (hms : msec.toNat < 2 ^ 31) (hm : 0 < msec.toNat) :
    ¬TimerLaw src d₀ τ₀ msec := by
  obtain ⟨hd, hold⟩ := Classical.not_imp.mp hcur
  rw [timerLaw_iff_readings]
  intro hlaw
  obtain ⟨τ, hle, hbefore, hafter⟩ := exists_last τ₀ hd hm
  have hskew : skew d₀ τ₀ τ₀ = 1 := if_pos ⟨rfl, not_le.mp hold⟩
  have hgap : src.elapsed τ₀ (τ + 1) ≤ src.elapsed τ₀ τ + 135 := by
    have hsucc := units_succ hd τ
    have hmono : src.units τ₀ ≤ src.units τ := units_mono hle
    unfold Source.elapsed
    omega
  have hτ := hlaw τ₀ τ ⟨le_rfl, fun _ => .inl rfl⟩ hle
  have hτ' := hlaw τ₀ (τ + 1) ⟨le_rfl, fun _ => .inl rfl⟩ (by omega)
  unfold InWindow at hτ hτ'
  rw [hskew, one_mul] at hτ hτ'
  rcases hd with rfl | rfl
  · simp only [Source.unitMs, Source.compared, one_mul] at hτ hτ' hbefore hafter
    have hcross := (hτ' (by omega)).mpr hafter
    have hearly := (hτ (by omega)).mp (le_of_ahead (by decide) hbefore.le hafter hgap hcross)
    omega
  · have hinc := increment_bios msec
    simp only [Source.unitMs, Source.compared] at hτ hτ' hbefore hafter
    have hcross := (hτ' (by omega)).mpr hafter
    have hearly := (hτ (by omega)).mp (le_of_ahead (by decide) (by omega) (by omega) hgap hcross)
    omega

/-- With the date right, all calls compare with the reading itself. -/
theorem law_iff_of_current (hcur : Current src d₀ τ₀) : TimerLaw src d₀ τ₀ msec ↔ ∀ τ, τ₀ ≤ τ →
    InWindow src τ₀ msec τ →
      (notZero (src.reading d₀ τ₀ + src.increment msec) ≤
          src.compared ((src.reading d₀ τ₀ + src.elapsed τ₀ τ) % 2 ^ 32) ↔
        msec.toNat ≤ src.unitMs * src.elapsed τ₀ τ) := by
  have hday {b : ℕ} (hb : Notices src d₀ τ₀ b) : skew d₀ τ₀ b * src.day = 0 := by
    by_cases hd : src.Daily
    · have hskew : skew d₀ τ₀ b = 0 := if_neg fun hc => by
        have := hourOf_mono hb.1 hc.1
        have := hcur hd
        omega
      rw [hskew, zero_mul]
    · cases src with
      | userTick => rfl
      | dayTime => rfl
      | pit => exact absurd (.inl rfl) hd
      | bios => exact absurd (.inr rfl) hd
  rw [timerLaw_iff_readings]
  constructor
  · intro h τ hle hw
    have hstart : Notices src d₀ τ₀ τ₀ := ⟨le_rfl, fun _ => .inl rfl⟩
    have := h τ₀ τ hstart hle hw
    rwa [hday hstart, Nat.add_zero] at this
  · intro h b τ hb hle hw
    rw [hday hb, Nat.add_zero]
    exact h τ (hb.1.trans hle) hw

theorem inWindow_start : InWindow src τ₀ msec τ₀ := by
  unfold InWindow Source.elapsed
  rw [Nat.sub_self]
  cases src <;> simp only [Source.unitMs] <;> omega

/-- The moments at which a number of ticks has passed. -/
theorem elapsed_bios (τ₀ k : ℕ) : Source.bios.elapsed τ₀ (τ₀ + 65536 * k) = k := by
  change (τ₀ + 65536 * k) / 65536 - τ₀ / 65536 = k
  omega

/-- A clock of ticks: the period is a number of ticks if the law holds. -/
theorem exact_bios {r : ℕ} (hr : r < 2 ^ 32) (hms : msec.toNat < 2 ^ 31)
    (h : ∀ τ, τ₀ ≤ τ → InWindow .bios τ₀ msec τ → (notZero (r + Source.bios.increment msec) ≤
      (r + Source.bios.elapsed τ₀ τ) % 2 ^ 32 ↔ msec.toNat ≤ 55 * Source.bios.elapsed τ₀ τ)) :
    Exact .bios r msec := by
  have htick (k : ℕ) (hk : 55 * k < msec.toNat + 55 * 2 ^ 31) : notZero (r + Source.bios.increment msec) ≤
      (r + k) % 2 ^ 32 ↔ msec.toNat ≤ 55 * k := by
    have := h (τ₀ + 65536 * k) (by omega) (by rw [InWindow, elapsed_bios]; exact hk)
    rwa [elapsed_bios] at this
  have hinc := increment_bios msec
  have h0 := htick 0 (by omega)
  have h1 := htick (Source.bios.increment msec) (by omega)
  have hv := notZero_cases (r + Source.bios.increment msec)
  generalize Source.bios.increment msec = q at hinc h0 h1 hv
  change msec.toNat ≠ 0 ∧ _
  constructor
  · intro hzero
    omega
  · by_contra hround
    rw [not_or, not_le] at hround
    omega

/-- An exact period is that many units. -/
theorem Exact.period {r : ℕ} (h : Exact src r msec) (hms : msec.toNat < 2 ^ 31) (k : ℕ) :
    src.increment msec < 2 ^ 31 ∧ (msec.toNat ≤ src.unitMs * k ↔ src.increment msec ≤ k) ∧
      (src.unitMs * k < msec.toNat + src.unitMs * 2 ^ 31 ↔ k < src.increment msec + 2 ^ 31) := by
  cases src with
  | bios =>
    have hinc := increment_bios msec
    simp only [Exact, Source.unitMs] at h ⊢
    omega
  | _ =>
    simp only [Source.unitMs, Source.increment]
    omega

theorem compared_cases (src : Source) {x : ℕ} (h : x < 2 ^ 32) : src.compared x = x ∨ x = 0 ∧ src.compared x = 1 := by
  cases src with
  | dayTime =>
    have hv := notZero_cases x
    simp only [Source.compared]
    omega
  | _ => exact .inl rfl

/-- **When the date is right.** -/
theorem law_iff_noWrap (hcur : Current src d₀ τ₀) (hms : msec.toNat < 2 ^ 31) : TimerLaw src d₀ τ₀ msec ↔
    NoWrap src (src.reading d₀ τ₀) τ₀ msec ∧ Exact src (src.reading d₀ τ₀) msec := by
  have hr : src.reading d₀ τ₀ < 2 ^ 32 := Source.reading_lt
  rw [law_iff_of_current hcur]
  generalize src.reading d₀ τ₀ = r at hr
  constructor
  · intro h
    have h0 := h τ₀ le_rfl inWindow_start
    have hsame : src.elapsed τ₀ τ₀ = 0 := Nat.sub_self _
    rw [hsame] at h0
    have hv := notZero_cases (r + src.increment msec)
    have hex : Exact src r msec := by
      cases src with
      | userTick =>
        simp only [Source.compared, Source.unitMs, Source.increment] at h0 hv
        rintro ⟨hr0, hm0⟩
        omega
      | dayTime =>
        have hv' := notZero_cases r
        simp only [Source.compared, Source.unitMs, Source.increment, Nat.add_zero, notZero_mod] at h0 hv
        rintro ⟨hr0, hm1⟩
        omega
      | pit =>
        simp only [Source.compared, Source.unitMs, Source.increment] at h0 hv
        rintro ⟨hr0, hm0⟩
        omega
      | bios => exact exact_bios hr hms h
    have hfit : r + src.increment msec < 2 ^ 32 := by
      obtain ⟨hq, hperiod, -⟩ := hex.period hms 0
      have hc := compared_cases src hr
      rw [hperiod, Nat.add_zero, Nat.mod_eq_of_lt hr] at h0
      omega
    refine ⟨⟨hfit, fun τ hle hw => ?_⟩, hex⟩
    obtain ⟨hq, hperiod, hwindow⟩ := hex.period hms (src.elapsed τ₀ τ)
    have hlaw := h τ hle hw
    have hk := hwindow.mp hw
    have hc := compared_cases src (x := (r + src.elapsed τ₀ τ) % 2 ^ 32) (Nat.mod_lt _ (by decide))
    rw [Nat.mod_eq_of_lt hfit] at hv
    by_contra hwrap
    have hmod : (r + src.elapsed τ₀ τ) % 2 ^ 32 = r + src.elapsed τ₀ τ - 2 ^ 32 := by omega
    rw [hmod] at hlaw hc
    omega
  · rintro ⟨⟨hfit, hno⟩, hex⟩ τ hle hw
    have hk := hno τ hle hw
    have hv := notZero_cases (r + src.increment msec)
    rw [Nat.mod_eq_of_lt hfit] at hv
    rw [Nat.mod_eq_of_lt hk]
    cases src with
    | userTick =>
      simp only [Source.compared, Source.unitMs, Source.increment, Exact] at hv hex ⊢
      omega
    | dayTime =>
      have hv' := notZero_cases (r + Source.dayTime.elapsed τ₀ τ)
      simp only [Source.compared, Source.unitMs, Source.increment, Exact] at hv hex ⊢
      omega
    | pit =>
      simp only [Source.compared, Source.unitMs, Source.increment, Exact] at hv hex ⊢
      omega
    | bios =>
      have hinc := increment_bios msec
      simp only [Source.compared, Source.unitMs, Exact] at hv hex ⊢
      omega

end Watt32.Timer
