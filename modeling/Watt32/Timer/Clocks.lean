import Watt32.Timer

/-!
# The clocks behind the timers

`set_timeout` and `chk_timeout` with the four clocks they can take: the user's tick counter, the time
of day, the PIT, and ticks of 55 ms. A moment is a number of the clock's own steps: milliseconds,
microseconds, and counts of the PIT for the last two, from some midnight on.

* `Source`, `Dates`: the clock, and the static variables that carry it over midnight.
* `setTimeoutAt`, `chkTimeoutAt`: the two functions at a moment.
* `Checked`: calls of `chk_timeout` one after the other, each of which notices a new day.
* `TimerLaw`: a timer is expired from its period on, and not before.
* **`reading_later`**, **`reading_first`**: the reading of a clock some units later, and behind calls.
* **`timerLaw_iff_readings`**: the law as one about readings.
-/

namespace Watt32.Timer

abbrev Dword := BitVec 32
abbrev Word := BitVec 16

/-! ## The clocks -/

/-- What the timers take the time from: `user_tick_msec` if `user_tick_active`, `gettimeofday2` in a
build with 64-bit integers or for Windows, the 8254 if `has_8254`, and else the ticks of the BIOS. -/
inductive Source
  | userTick
  | dayTime
  | pit
  | bios
  deriving DecidableEq

/-- The clock begins again at midnight. -/
def Source.Daily (src : Source) : Prop := src = .pit ∨ src = .bios

instance {src : Source} : Decidable src.Daily := inferInstanceAs (Decidable (_ ∨ _))

/-- `date`, `date_ms`, and `oldHour` of `chk_timeout`. -/
structure Dates where
  date : Dword
  dateMs : Dword
  oldHour : ℤ

/-- `user_tick_msec`. -/
def userTickMsec (τ : ℕ) : Dword := BitVec.ofNat 32 τ

/-- `tv_sec` of `gettimeofday2`. -/
def tvSec (τ : ℕ) : Dword := BitVec.ofNat 32 (τ / 1000000)

/-- `tv_usec` of `gettimeofday2`. -/
def tvUsec (τ : ℕ) : Dword := BitVec.ofNat 32 (τ % 1000000)

/-- `PEEKL (0, BIOS_CLK)`: the ticks since midnight. A tick is 65536 counts, a day 0x1800B0 ticks. -/
def biosClk (τ : ℕ) : Dword := BitVec.ofNat 32 (τ / 65536 % 1573040)

/-- `clockbits`: the counter of the 8254 counts down. -/
def clockbits (τ : ℕ) : Word := 0 - BitVec.ofNat 16 τ

/-- `millisec_clock`, its floating point read as exact. -/
def millisecClock (τ : ℕ) : Dword :=
  let lo := 0 - clockbits τ
  BitVec.ofNat 32 (((biosClk τ).toNat * 65536 + lo.toNat) * 88 / 105000)

/-- `set_timeout` at a moment. -/
def setTimeoutAt (src : Source) (d : Dates) (τ : ℕ) (msec : Dword) : Dword :=
  let ret :=
    match src with
    | .userTick => userTickMsec τ + msec
    | .dayTime => msec + 1000 * tvSec τ + tvUsec τ / 1000
    | .pit => msec + d.dateMs + millisecClock τ
    | .bios => (if 55 < msec then msec / 55 else 1) + d.date + biosClk τ
  if ret = 0 then 1 else ret

/-- The `hour` of `chk_timeout`: a `char`. -/
def hourChar (τ : ℕ) : ℤ := ((biosClk τ >>> 16).setWidth 8).toInt

/-- The first part of `chk_timeout`: a smaller hour than at the last call is a new day. -/
def newHour (d : Dates) (τ : ℕ) : Dates :=
  if hourChar τ ≠ d.oldHour then
    let d := if hourChar τ < d.oldHour then
        { d with date := d.date + (1572750 + 290), dateMs := d.dateMs + 3600 * 24 * 1000 }
      else d
    { d with oldHour := hourChar τ }
  else d

/-- `chk_timeout` at a moment. -/
def chkTimeoutAt (src : Source) (d : Dates) (τ : ℕ) (value : Dword) : Dates × Bool :=
  match src with
  | .userTick => (d, value ≠ 0 ∧ value ≤ userTickMsec τ)
  | .dayTime => (d, value ≠ 0 ∧ value ≤ setTimeoutAt .dayTime d τ 0)
  | .pit =>
    let d := newHour d τ
    (d, value ≠ 0 ∧ value ≤ millisecClock τ + d.dateMs)
  | .bios =>
    let d := newHour d τ
    (d, value ≠ 0 ∧ value ≤ biosClk τ + d.date)

/-! ## The law -/

/-- The milliseconds of a unit of the clock. -/
def Source.unitMs : Source → ℕ
  | .bios => 55
  | _ => 1

/-- The days that have passed. -/
def dayOf (τ : ℕ) : ℕ := τ / 65536 / 1573040

/-- The hour of the day, as `chk_timeout` counts them. -/
def hourOf (τ : ℕ) : ℕ := τ / 65536 % 1573040 / 65536

/-- The reading of the clock in its own units, carried over midnight. -/
def Source.units (src : Source) (τ : ℕ) : ℕ :=
  match src with
  | .userTick => τ
  | .dayTime => τ / 1000
  | .pit => dayOf τ * 86400000 + (τ / 65536 % 1573040 * 65536 + τ % 65536) * 88 / 105000
  | .bios => τ / 65536

/-- A call at `b`, the one before at `a`: it is the same day, or the next one and the hour shows it. -/
def Notices (src : Source) (d : Dates) (a b : ℕ) : Prop :=
  a ≤ b ∧ (src.Daily → dayOf b = dayOf a ∨ dayOf b = dayOf a + 1 ∧ (hourOf b : ℤ) < d.oldHour)

/-- Calls of `chk_timeout` from the moment `τ₀` on, each of which notices a new day: the static
variables afterwards, and the moment of the last. -/
inductive Checked (src : Source) (d₀ : Dates) (τ₀ : ℕ) : Dates → ℕ → Prop
  | start : Checked src d₀ τ₀ d₀ τ₀
  | call {d : Dates} {a b : ℕ} (value : Dword) (h : Checked src d₀ τ₀ d a) (hn : Notices src d a b) :
      Checked src d₀ τ₀ (chkTimeoutAt src d b value).1 b

/-- The units that have passed. -/
def Source.elapsed (src : Source) (τ₀ τ : ℕ) : ℕ := src.units τ - src.units τ₀

/-- Less than half the range has passed since the timer's expiry. -/
def InWindow (src : Source) (τ₀ : ℕ) (msec : Dword) (τ : ℕ) : Prop :=
  src.unitMs * src.elapsed τ₀ τ < msec.toNat + src.unitMs * 2 ^ 31

/-- **The law of a timer**, set at `τ₀`: any later call of `chk_timeout` answers whether the period
has passed. -/
def TimerLaw (src : Source) (d₀ : Dates) (τ₀ : ℕ) (msec : Dword) : Prop :=
  ∀ d a τ, Checked src d₀ τ₀ d a → Notices src d a τ → InWindow src τ₀ msec τ →
    ((chkTimeoutAt src d τ (setTimeoutAt src d₀ τ₀ msec)).2 = true ↔
      msec.toNat ≤ src.unitMs * src.elapsed τ₀ τ)

/-! ## Readings -/

variable {src : Source} {d d₀ : Dates} {τ τ₀ : ℕ} {value msec : Dword}

/-- 0 is no timer, and becomes 1. -/
def notZero (x : ℕ) : ℕ := if x % 2 ^ 32 = 0 then 1 else x % 2 ^ 32

/-- The reading of the clock. -/
def Source.reading (src : Source) (d : Dates) (τ : ℕ) : ℕ :=
  match src with
  | .userTick => (userTickMsec τ).toNat
  | .dayTime => (1000 * tvSec τ + tvUsec τ / 1000).toNat
  | .pit => (d.dateMs + millisecClock τ).toNat
  | .bios => (d.date + biosClk τ).toNat

/-- The reading that `chk_timeout` compares with. -/
def Source.compared (src : Source) (r : ℕ) : ℕ :=
  match src with
  | .dayTime => notZero r
  | _ => r

/-- What `set_timeout` adds to it. -/
def Source.increment (src : Source) (msec : Dword) : ℕ :=
  match src with
  | .bios => if 55 < msec then msec.toNat / 55 else 1
  | _ => msec.toNat

theorem Source.reading_lt : src.reading d τ < 2 ^ 32 := by
  cases src <;> exact BitVec.isLt _

theorem toNat_notZero (x : Dword) : (if x = 0 then 1 else x).toNat = notZero x.toNat := by
  unfold notZero
  rw [Nat.mod_eq_of_lt x.isLt]
  by_cases h : x = 0
  · subst h
    rfl
  · rw [if_neg h, if_neg (by simpa [BitVec.toNat_eq] using h)]

theorem notZero_mod (x : ℕ) : notZero (x % 2 ^ 32) = notZero x := by
  unfold notZero
  rw [Nat.mod_mod]

theorem notZero_cases (x : ℕ) :
    0 < x % 2 ^ 32 ∧ notZero x = x % 2 ^ 32 ∨ x % 2 ^ 32 = 0 ∧ notZero x = 1 := by
  unfold notZero
  split_ifs with h
  · exact .inr ⟨h, rfl⟩
  · exact .inl ⟨Nat.pos_of_ne_zero h, rfl⟩

theorem notZero_pos (x : ℕ) : 0 < notZero x := by
  unfold notZero
  split_ifs <;> omega

/-- The value of a timer. -/
theorem toNat_setTimeoutAt :
    (setTimeoutAt src d τ msec).toNat = notZero (src.reading d τ + src.increment msec) := by
  unfold setTimeoutAt
  dsimp only
  rw [toNat_notZero, ← notZero_mod (_ + _)]
  congr 1
  cases src
  · simp only [Source.reading, Source.increment]
    bv_omega
  · simp only [Source.reading, Source.increment]
    bv_omega
  · simp only [Source.reading, Source.increment]
    bv_omega
  · simp only [Source.reading, Source.increment]
    by_cases h : 55 < msec
    · have hdiv : (msec / 55).toNat = msec.toNat / 55 := BitVec.toNat_udiv
      rw [if_pos h, if_pos h, ← hdiv]
      bv_omega
    · rw [if_neg h, if_neg h]
      bv_omega

/-- The static variables after a call. -/
def Source.after (src : Source) (d : Dates) (τ : ℕ) : Dates := if src.Daily then newHour d τ else d

theorem chkTimeoutAt_fst : (chkTimeoutAt src d τ value).1 = src.after d τ := by
  cases src <;> rfl

/-- The answer of a call. -/
theorem chkTimeoutAt_snd (hv : value ≠ 0) : (chkTimeoutAt src d τ value).2 = true ↔
    value.toNat ≤ src.compared (src.reading (chkTimeoutAt src d τ value).1 τ) := by
  cases src
  all_goals
    simp only [chkTimeoutAt, decide_eq_true_eq]
    rw [and_iff_right hv, BitVec.le_def]
  · rfl
  · rw [toNat_setTimeoutAt]
    rfl
  · rw [BitVec.add_comm]
    rfl
  · rw [BitVec.add_comm]
    rfl

/-! ## Days -/

theorem hourOf_le (τ : ℕ) : hourOf τ ≤ 24 := by
  unfold hourOf
  omega

theorem hourChar_eq (τ : ℕ) : hourChar τ = hourOf τ := by
  have hclk : (biosClk τ).toNat = τ / 65536 % 1573040 :=
    (BitVec.toNat_ofNat _ 32).trans (Nat.mod_eq_of_lt (by omega))
  have hle := hourOf_le τ
  have hnat : ((biosClk τ >>> 16).setWidth 8).toNat = hourOf τ := by
    rw [BitVec.toNat_setWidth, BitVec.toNat_ushiftRight, hclk, Nat.shiftRight_eq_div_pow]
    exact Nat.mod_eq_of_lt (by unfold hourOf at hle; omega)
  rw [hourChar, BitVec.toInt_eq_toNat_of_lt (by omega), hnat]

theorem oldHour_newHour (d : Dates) (τ : ℕ) : (newHour d τ).oldHour = hourOf τ := by
  unfold newHour
  rw [hourChar_eq]
  by_cases h : (hourOf τ : ℤ) ≠ d.oldHour
  · rw [if_pos h]
  · rw [if_neg h]
    exact (not_not.mp h).symm

/-- The dates are those of `n` days later. -/
def Dates.Later (d₀ : Dates) (n : ℕ) (d : Dates) : Prop :=
  d.date = d₀.date + BitVec.ofNat 32 (n * 1573040) ∧ d.dateMs = d₀.dateMs + BitVec.ofNat 32 (n * 86400000)

theorem Dates.Later.refl (d : Dates) : d.Later 0 d := by
  constructor <;> simp

theorem Dates.Later.trans {d₁ d₂ : Dates} {m n : ℕ} (h : d₀.Later m d₁) (h' : d₁.Later n d₂) :
    d₀.Later (m + n) d₂ := by
  constructor
  · rw [h'.1, h.1, BitVec.add_assoc, ← BitVec.ofNat_add, Nat.add_mul]
  · rw [h'.2, h.2, BitVec.add_assoc, ← BitVec.ofNat_add, Nat.add_mul]

/-- A smaller hour adds a day. -/
theorem later_newHour (d : Dates) (τ : ℕ) :
    d.Later (if (hourOf τ : ℤ) < d.oldHour then 1 else 0) (newHour d τ) := by
  unfold newHour
  rw [hourChar_eq]
  by_cases hlt : (hourOf τ : ℤ) < d.oldHour
  · rw [if_pos (show (hourOf τ : ℤ) ≠ d.oldHour from hlt.ne), if_pos hlt, if_pos hlt]
    exact ⟨rfl, rfl⟩
  · rw [if_neg hlt, if_neg hlt]
    split_ifs <;> exact Dates.Later.refl d

/-- The counts since midnight. -/
theorem counts_eq (τ : ℕ) : τ / 65536 % 1573040 * 65536 + τ % 65536 = τ % (65536 * 1573040) := by
  rw [Nat.mod_mul, Nat.add_comm, Nat.mul_comm]

theorem dayOf_eq (τ : ℕ) : dayOf τ = τ / (65536 * 1573040) := Nat.div_div_eq_div_mul τ _ _

theorem units_pit (τ : ℕ) :
    Source.pit.units τ = τ / 103090749440 * 86400000 + τ % 103090749440 * 88 / 105000 := by
  change dayOf τ * 86400000 + (τ / 65536 % 1573040 * 65536 + τ % 65536) * 88 / 105000 = _
  rw [counts_eq, dayOf_eq]

theorem toNat_millisecClock (τ : ℕ) : (millisecClock τ).toNat = τ % 103090749440 * 88 / 105000 := by
  have hlo : (0 - clockbits τ).toNat = τ % 65536 := by
    have hneg : 0 - clockbits τ = BitVec.ofNat 16 τ := by
      unfold clockbits
      bv_omega
    rw [hneg]
    exact BitVec.toNat_ofNat _ 16
  have hclk : (biosClk τ).toNat = τ / 65536 % 1573040 :=
    (BitVec.toNat_ofNat _ 32).trans (Nat.mod_eq_of_lt (by omega))
  unfold millisecClock
  dsimp only
  rw [hlo, hclk, counts_eq, BitVec.toNat_ofNat]
  exact Nat.mod_eq_of_lt (by omega)

/-- The clock does not go back. -/
theorem units_mono (h : τ₀ ≤ τ) : src.units τ₀ ≤ src.units τ := by
  cases src
  · exact h
  · exact Nat.div_le_div_right h
  · rw [units_pit, units_pit]
    rcases (Nat.div_le_div_right (c := 103090749440) h).lt_or_eq with hlt | heq
    · omega
    · have hmod : τ₀ % 103090749440 * 88 / 105000 ≤ τ % 103090749440 * 88 / 105000 :=
        Nat.div_le_div_right (Nat.mul_le_mul_right 88 (by omega))
      omega
  · exact Nat.div_le_div_right h

/-- The units of a day. -/
def Source.day : Source → ℕ
  | .pit => 86400000
  | .bios => 1573040
  | _ => 0

/-- **The reading** some units later, when the dates are ahead by `s` days. -/
theorem reading_later {n s : ℕ} (hle : τ₀ ≤ τ) (hn : dayOf τ + s = dayOf τ₀ + n)
    (h : src.Daily → d₀.Later n d) :
    src.reading d τ = (src.reading d₀ τ₀ + s * src.day + src.elapsed τ₀ τ) % 2 ^ 32 := by
  have hu : src.units τ₀ ≤ src.units τ := units_mono hle
  unfold Source.elapsed
  cases src with
  | userTick =>
    simp only [Source.reading, Source.units, Source.day, userTickMsec, BitVec.toNat_ofNat] at hu ⊢
    omega
  | dayTime =>
    have hr (τ : ℕ) : (1000 * tvSec τ + tvUsec τ / 1000).toNat = τ / 1000 % 2 ^ 32 := by
      have husec : (tvUsec τ / 1000).toNat = τ % 1000000 / 1000 := by
        rw [BitVec.toNat_udiv, tvUsec, BitVec.toNat_ofNat, Nat.mod_eq_of_lt (by omega)]
        rfl
      rw [BitVec.toNat_add, husec, BitVec.toNat_mul, tvSec, BitVec.toNat_ofNat]
      have hk : (1000 : Dword).toNat = 1000 := by decide
      rw [hk]
      omega
    simp only [Source.reading, Source.units, Source.day, hr] at hu ⊢
    omega
  | pit =>
    have hdate := (h (.inl rfl)).2
    rw [units_pit, units_pit] at hu ⊢
    rw [show Source.pit.day = 86400000 from rfl]
    change (d.dateMs + millisecClock τ).toNat = ((d₀.dateMs + millisecClock τ₀).toNat + _ + _) % _
    rw [hdate, BitVec.toNat_add, BitVec.toNat_add, BitVec.toNat_add, BitVec.toNat_ofNat,
      toNat_millisecClock, toNat_millisecClock]
    rw [dayOf_eq, dayOf_eq, show 65536 * 1573040 = 103090749440 from rfl] at hn
    generalize τ / 103090749440 = q, τ₀ / 103090749440 = q₀, τ % 103090749440 * 88 / 105000 = f,
      τ₀ % 103090749440 * 88 / 105000 = f₀ at hu hn ⊢
    omega
  | bios =>
    have hdate := (h (.inr rfl)).1
    rw [show Source.bios.day = 1573040 from rfl]
    change (d.date + biosClk τ).toNat = ((d₀.date + biosClk τ₀).toNat + _ + (τ / 65536 - τ₀ / 65536)) % _
    have hticks : τ₀ / 65536 ≤ τ / 65536 := hu
    unfold dayOf at hn
    rw [hdate, biosClk, biosClk, BitVec.toNat_add, BitVec.toNat_add, BitVec.toNat_add,
      BitVec.toNat_ofNat, BitVec.toNat_ofNat, BitVec.toNat_ofNat]
    omega

/-! ## Calls -/

variable {a b : ℕ}

theorem oldHour_after (h : src.Daily) : (src.after d τ).oldHour = hourOf τ := by
  rw [Source.after, if_pos h, oldHour_newHour]

theorem hourOf_mono (h : a ≤ b) (hd : dayOf b = dayOf a) : hourOf a ≤ hourOf b := by
  unfold hourOf
  unfold dayOf at hd
  omega

/-- The day that the first call adds to one that the clock has begun before it. -/
def skew (d₀ : Dates) (τ₀ b : ℕ) : ℕ := if dayOf b = dayOf τ₀ ∧ (hourOf b : ℤ) < d₀.oldHour then 1 else 0

/-- A call adds the days that have passed, and that one. -/
theorem later_after (hd : src.Daily) (h : Notices src d a b) :
    ∃ n, dayOf b + skew d a b = dayOf a + n ∧ d.Later n (src.after d b) := by
  rw [Source.after, if_pos hd, skew]
  rcases h.2 hd with heq | ⟨heq, hlt⟩
  · refine ⟨_, ?_, later_newHour d b⟩
    simp only [heq, true_and]
  · refine ⟨1, ?_, ?_⟩
    · rw [if_neg fun hc => by omega, heq]
    · have := later_newHour d b
      rwa [if_pos hlt] at this

/-- The calls behind one after which the hour is right. -/
theorem Checked.later (hd : src.Daily) (hold : d₀.oldHour = hourOf τ₀) (h : Checked src d₀ τ₀ d a) :
    τ₀ ≤ a ∧ d.oldHour = hourOf a ∧ ∃ n, dayOf a = dayOf τ₀ + n ∧ d₀.Later n d := by
  induction h with
  | start => exact ⟨le_rfl, hold, 0, rfl, Dates.Later.refl _⟩
  | @call d a b value _ hn ih =>
    obtain ⟨hle, hhour, n, hday, hl⟩ := ih
    obtain ⟨m, hm, hl'⟩ := later_after hd hn
    rw [chkTimeoutAt_fst]
    refine ⟨hle.trans hn.1, oldHour_after hd, n + m, ?_, hl.trans hl'⟩
    have hskew : skew d a b = 0 := if_neg fun hc => by
      have := hourOf_mono hn.1 hc.1
      omega
    omega

theorem Checked.le (h : Checked src d₀ τ₀ d a) : τ₀ ≤ a := by
  induction h with
  | start => exact le_rfl
  | call value _ hn ih => exact ih.trans hn.1

/-- A first call. -/
theorem Checked.cons (hn : Notices src d₀ τ₀ b) (h : Checked src (src.after d₀ b) b d a) :
    Checked src d₀ τ₀ d a := by
  induction h with
  | start =>
    rw [← chkTimeoutAt_fst]
    exact .call 0 .start hn
  | call value _ hn' ih => exact .call value ih hn'

/-- The first of the calls up to a further one. -/
theorem Checked.first (h : Checked src d₀ τ₀ d a) (hn : Notices src d a τ) :
    ∃ b, Notices src d₀ τ₀ b ∧ Checked src (src.after d₀ b) b (src.after d τ) τ := by
  induction h generalizing τ with
  | start => exact ⟨τ, hn, .start⟩
  | call value _ hn' ih =>
    obtain ⟨b, hb, hc⟩ := ih hn'
    rw [chkTimeoutAt_fst] at hn ⊢
    have hc' := hc.call 0 hn
    rw [chkTimeoutAt_fst] at hc'
    exact ⟨b, hb, hc'⟩

/-- Calls can be so close that each notices a new day. -/
theorem exists_checked (src : Source) (d₀ : Dates) (hold : src.Daily → d₀.oldHour = hourOf τ₀)
    (hle : τ₀ ≤ τ) :
    ∃ d, Checked src d₀ τ₀ d τ ∧ (src.Daily → d.oldHour = hourOf τ) := by
  induction τ, hle using Nat.le_induction with
  | base => exact ⟨d₀, .start, hold⟩
  | succ τ _ ih =>
    obtain ⟨d, hd, hh⟩ := ih
    refine ⟨_, .call 0 hd ⟨τ.le_succ, fun hs => ?_⟩, fun hs => ?_⟩
    · rw [hh hs]
      unfold dayOf hourOf
      omega
    · rw [chkTimeoutAt_fst]
      exact oldHour_after hs

/-- **What the calls compare with**, after a first call at `b`. -/
theorem reading_first (hb : Notices src d₀ τ₀ b) (h : Checked src (src.after d₀ b) b d τ) :
    src.reading d τ = (src.reading d₀ τ₀ + skew d₀ τ₀ b * src.day + src.elapsed τ₀ τ) % 2 ^ 32 := by
  have hle := hb.1.trans h.le
  by_cases hd : src.Daily
  · obtain ⟨n, hn, hl⟩ := later_after hd hb
    obtain ⟨-, -, m, hm, hl'⟩ := h.later hd (oldHour_after hd)
    have hn' : dayOf τ + skew d₀ τ₀ b = dayOf τ₀ + (n + m) := by omega
    exact reading_later hle hn' fun _ => hl.trans hl'
  · have hday : dayOf τ₀ ≤ dayOf τ := Nat.div_le_div_right (Nat.div_le_div_right hle)
    exact reading_later hle (n := dayOf τ + skew d₀ τ₀ b - dayOf τ₀) (by omega) fun h => absurd h hd

/-- **The law in terms of readings.** -/
theorem timerLaw_iff_readings : TimerLaw src d₀ τ₀ msec ↔ ∀ b τ, Notices src d₀ τ₀ b → b ≤ τ →
    InWindow src τ₀ msec τ →
      (notZero (src.reading d₀ τ₀ + src.increment msec) ≤ src.compared
          ((src.reading d₀ τ₀ + skew d₀ τ₀ b * src.day + src.elapsed τ₀ τ) % 2 ^ 32) ↔
        msec.toNat ≤ src.unitMs * src.elapsed τ₀ τ) := by
  have hvalue : setTimeoutAt src d₀ τ₀ msec ≠ 0 := by
    intro h
    have hpos := notZero_pos (src.reading d₀ τ₀ + src.increment msec)
    rw [← toNat_setTimeoutAt, h] at hpos
    exact absurd hpos (by decide)
  have hanswer {d : Dates} {τ : ℕ} : (chkTimeoutAt src d τ (setTimeoutAt src d₀ τ₀ msec)).2 = true ↔
      notZero (src.reading d₀ τ₀ + src.increment msec) ≤ src.compared (src.reading (src.after d τ) τ) := by
    rw [chkTimeoutAt_snd hvalue, toNat_setTimeoutAt, chkTimeoutAt_fst]
  constructor
  · intro h b τ hb hle hw
    obtain ⟨d, hd, -⟩ := exists_checked src (src.after d₀ b) oldHour_after hle
    rw [← reading_first hb hd]
    cases hd with
    | start => exact hanswer.symm.trans (h _ _ _ .start hb hw)
    | call value hd hn =>
      rw [chkTimeoutAt_fst]
      exact hanswer.symm.trans (h _ _ _ (hd.cons hb) hn hw)
  · intro h d a τ hd hn hw
    obtain ⟨b, hb, hc⟩ := hd.first hn
    rw [hanswer, reading_first hb hc]
    exact h b τ hb hc.le hw

end Watt32.Timer
