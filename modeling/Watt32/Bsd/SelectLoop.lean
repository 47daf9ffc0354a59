import Mathlib.Data.Finset.Card
import Mathlib.Data.Fintype.Basic
import Mathlib.Algebra.BigOperators.Fin
import Mathlib.Tactic

/-!
# The loop of `select_s`

The working sets, the count, the expiry and the time left over an unbounded polling loop.

* `selectOne`, `passStep`: one descriptor; `runPass`: a pass over all of them.
* `expiryOf`, `timevalDiff2`, `timeLeft`: the arithmetic of times.
* `selectS`: the function, against what each pass finds.
* `ExactResult`: what a result is to be.
* **`select_exact_iff`**: in which calls every result is so.
-/

namespace Watt32.SelectLoop

/-! ## The data -/

/-- POLLIN, POLLOUT and POLLPRI; the three sets. -/
inductive Kind
  | read | write | except
  deriving DecidableEq, Repr

instance : Fintype Kind := ⟨{.read, .write, .except}, fun k => by cases k <;> decide⟩

/-- `timeval`. -/
structure TimeVal where
  sec : ℤ
  usec : ℤ
  deriving DecidableEq, Repr

/-- A time in microseconds. -/
def TimeVal.micros (t : TimeVal) : ℤ := t.sec * 1000000 + t.usec

/-- `gettimeofday2`, `t` microseconds after the epoch. -/
def gettimeofday (t : ℕ) : TimeVal := ⟨(t / 1000000 : ℕ), (t % 1000000 : ℕ)⟩

/-- What a pass finds at a descriptor: `_socklist_find`, and the tests of `select_one`. -/
structure Probe where
  socket : Bool := true
  connecting : Bool := false
  readSelect : Bool := false
  readSignalled : Bool := false
  writeSelect : Bool := false
  writeSignalled : Bool := false
  excSelect : Bool := false

/-- What `select_s` takes from outside: the clock at the start and after each pass, what each pass finds,
and the signals. -/
structure Outside where
  start : ℕ
  clock : ℕ → ℕ
  probe : ℕ → ℕ → Probe
  signal : ℕ → Bool

/-- The arguments, and whether times are subtracted in floating point. -/
structure Call where
  nfds : ℤ
  fds : Kind → Option (Finset ℕ)
  timeout : Option TimeVal
  float : Bool

/-- What a call leaves, and (a ghost) in which pass. -/
structure Result where
  ret : ℤ
  fds : Kind → Option (Finset ℕ)
  timeout : Option TimeVal
  pass : ℕ

/-- A call goes on, is not defined, or returns. -/
inductive Outcome
  | running
  | undefined
  | returned (r : Result)

/-- `MAX_SOCKETS` and `SK_FIRST`. -/
def maxSockets : ℕ := 5000
def skFirst : ℕ := 3

/-! ## Times -/

/-- A `long`. -/
def maxLong : ℤ := 2 ^ 31 - 1

/-- `expiry`: the loop carries the seconds in `tv_usec` one by one. -/
def expiryOf (start timeout : TimeVal) : Option TimeVal :=
  let sec := start.sec + timeout.sec
  let usec := start.usec + timeout.usec
  if maxLong < sec ∨ maxLong < usec ∨ maxLong < sec + usec / 1000000 then none
  else some ⟨sec + usec / 1000000, usec % 1000000⟩

/-- `now` is at or after `expiry`. -/
def expired (now expiry : TimeVal) : Bool :=
  expiry.sec < now.sec ∨ now.sec = expiry.sec ∧ expiry.usec ≤ now.usec

/-- `timeval_diff2 (ta, tb)`. -/
def timevalDiff2 (ta tb : TimeVal) : TimeVal :=
  let ta : TimeVal := if ta.usec < tb.usec then ⟨ta.sec - 1, ta.usec + 1000000⟩ else ta
  let tv : TimeVal := ⟨ta.sec - tb.sec, ta.usec - tb.usec⟩
  if 1000000 ≤ tv.usec then ⟨tv.sec + 1, tv.usec - 1000000⟩ else tv

/-- `timeval_diff (newer, older)` in exact arithmetic; its loop moves seconds to `d_usec`. -/
def timevalDiff (newer older : TimeVal) : ℤ :=
  (newer.sec - older.sec) * 1000000 + (newer.usec - older.usec)

/-- What is stored in `*timeout`. The remainder by `1000000UL` is that of an `unsigned long`. -/
def timeLeft (float : Bool) (now expiry : TimeVal) : TimeVal :=
  if float then
    let remaining := timevalDiff now expiry
    ⟨remaining.tdiv 1000000, ((BitVec.ofInt 32 remaining).toNat % 1000000 : ℕ)⟩
  else timevalDiff2 now expiry

/-! ## One pass -/

/-- `select_one`; `socket` is not NULL. -/
def selectOne (socket : Bool) (p : Probe) (events : Kind → Bool) : Kind → Bool
  | .read => events .read && (p.readSelect || socket && p.readSignalled)
  | .write => events .write && !(socket && p.connecting) && (p.writeSelect || socket && p.writeSignalled)
  | .except => events .except && p.excSelect

/-- The working sets and `ret_count`. -/
structure Work where
  tmp : Kind → Finset ℕ := fun _ => ∅
  count : ℕ := 0

/-- `events` for the descriptor `s`. -/
def events (c : Call) (s : ℕ) (k : Kind) : Bool := (c.fds k).any (s ∈ ·)

/-- `revents` for the descriptor `s`; what is not found is skipped. -/
def revents (c : Call) (p : Probe) (s : ℕ) : Kind → Bool :=
  let socket : Bool := skFirst ≤ s ∧ (events c s .read ∨ events c s .write ∨ events c s .except) ∧ p.socket
  if skFirst ≤ s ∧ socket = false then selectOne false p fun _ => false
  else selectOne socket p (events c s)

/-- A turn of the loop over the descriptors. -/
def passStep (c : Call) (probe : ℕ → Probe) (w : Work) (s : ℕ) : Work where
  tmp k := if revents c (probe s) s k then insert s (w.tmp k) else w.tmp k
  count := w.count + ((revents c (probe s) s .read).toNat + (revents c (probe s) s .write).toNat +
    (revents c (probe s) s .except).toNat)

/-- `num_fd`. -/
def numFd (nfds : ℤ) : ℕ := if maxSockets < nfds ∨ nfds < 0 then maxSockets else nfds.toNat

/-- A pass over the descriptors. -/
def runPass (c : Call) (probe : ℕ → Probe) (w : Work) : Work :=
  (List.range (numFd c.nfds)).foldl (passStep c probe) w

/-- The working set to the output set: `FD_SET` and `FD_CLR` below `num_fd`. -/
def copyOut (n : ℕ) (tmp fds : Finset ℕ) : Finset ℕ :=
  (List.range n).foldl (fun out s => if s ∈ tmp then insert s out else out.erase s) fds

/-! ## The function -/

/-- The loop, `fuel` passes at most, the `n`-th first. -/
def selectLoop (c : Call) (e : Outside) (expiry : Option TimeVal) : (fuel n : ℕ) → Work → Outcome
  | 0, _, _ => .running
  | fuel + 1, n, w =>
    let w := runPass c (e.probe n) w
    let now := gettimeofday (e.clock n)
    if 0 < w.count then
      .returned {
        ret := w.count
        fds := fun k => (c.fds k).map (copyOut (numFd c.nfds) (w.tmp k))
        timeout := expiry.map (timeLeft c.float now)
        pass := n }
    else if expiry.any (expired now) then
      .returned {
        ret := 0
        fds := fun k => (c.fds k).map (copyOut (numFd c.nfds) ∅)
        timeout := c.timeout
        pass := n }
    else if e.signal n then .returned ⟨-1, c.fds, c.timeout, n⟩
    else selectLoop c e expiry fuel (n + 1) w

/-- `select_s`. -/
def selectS (c : Call) (e : Outside) (fuel : ℕ) : Outcome :=
  match c.timeout with
  | none => selectLoop c e none fuel 0 {}
  | some timeout =>
    if timeout.sec < 0 ∨ timeout.usec < 0 then .returned ⟨-1, c.fds, c.timeout, 0⟩
    else
      match expiryOf (gettimeofday e.start) timeout with
      | none => .undefined
      | some expiry => selectLoop c e (some expiry) fuel 0 {}

/-! ## What a result is to be -/

/-- A test of `select_one` that holds at a descriptor; one with no socket behind it has only some. -/
def Ready (p : Probe) (socket : Bool) : Kind → Prop
  | .read => p.readSelect = true ∨ socket = true ∧ p.readSignalled = true
  | .write => (socket = true → p.connecting = false) ∧
      (p.writeSelect = true ∨ socket = true ∧ p.writeSignalled = true)
  | .except => p.excSelect = true

/-- The descriptor `s` is looked at in the pass `n`, and found ready. -/
def Found (c : Call) (e : Outside) (n : ℕ) (k : Kind) (s : ℕ) : Prop :=
  s < numFd c.nfds ∧ if skFirst ≤ s then (e.probe n s).socket = true ∧ Ready (e.probe n s) true k
    else Ready (e.probe n s) false k

/-- **An exact result**. -/
structure ExactResult (c : Call) (e : Outside) (r : Result) : Prop where
  /-- The count is that of all bits. -/
  counted : r.ret = ∑ k, ((r.fds k).elim 0 Finset.card : ℕ)
  /-- The bits left are those of the descriptors found ready. -/
  ready : ∀ k S, c.fds k = some S → ∃ R, r.fds k = some R ∧ ∀ s, s ∈ R ↔ s ∈ S ∧ Found c e r.pass k s
  /-- 0 says that the time is over. -/
  elapsed : r.ret = 0 → ∃ t, c.timeout = some t ∧ t.micros ≤ e.clock r.pass - e.start
  /-- The time left before the expiry. -/
  left : 0 < r.ret → ∀ t, c.timeout = some t → (e.clock r.pass : ℤ) < e.start + t.micros →
    ∃ t', r.timeout = some t' ∧ t'.micros = e.start + t.micros - e.clock r.pass ∧ 0 ≤ t'.usec ∧ t'.usec < 1000000

/-- Every result that is no error is exact. -/
def SelectExact (c : Call) (e : Outside) : Prop :=
  ∀ fuel, match selectS c e fuel with
    | .running => True
    | .undefined => False
    | .returned r => r.ret = -1 ∨ ExactResult c e r

/-! ## The conditions -/

/-- The expiry is a `timeval`. -/
def ExpiryFits (c : Call) (e : Outside) : Prop :=
  ∀ t, c.timeout = some t → (e.start / 1000000 : ℕ) + t.sec ≤ maxLong ∧
    (e.start % 1000000 : ℕ) + t.usec ≤ maxLong ∧ (e.start + t.micros) / 1000000 ≤ maxLong

/-- The pass `n` finds something. -/
def SomeFound (c : Call) (e : Outside) (n : ℕ) : Prop := ∃ k S s, c.fds k = some S ∧ s ∈ S ∧ Found c e n k s

/-- The time is over after the pass `n`. -/
def TimeOver (c : Call) (e : Outside) (n : ℕ) : Prop :=
  ∃ t, c.timeout = some t ∧ (e.start : ℤ) + t.micros ≤ e.clock n

/-- The call goes beyond the pass `n`. -/
def GoesOn (c : Call) (e : Outside) (n : ℕ) : Prop :=
  ¬SomeFound c e n ∧ ¬TimeOver c e n ∧ e.signal n = false

/-- No bit is set that is not looked at. -/
def NoHighBits (c : Call) : Prop := ∀ k S, c.fds k = some S → ∀ s ∈ S, s < numFd c.nfds

/-- The time left at which the result is right in spite of the order of the arguments. -/
def LuckyTime (float : Bool) (left : ℤ) : Prop := float = true ∧ (left = 483648 ∨ left = 983648)


variable {c : Call} {e : Outside} {r : Result} {k : Kind} {s n fuel : ℕ} {probe : ℕ → Probe} {p : Probe}
  {tmp fds S : Finset ℕ} {t x : TimeVal} {expiry : Option TimeVal}

/-! ## One pass -/

theorem selectOne_iff {socket : Bool} {ev : Kind → Bool} :
    selectOne socket p ev k = true ↔ ev k = true ∧ Ready p socket k := by
  cases k <;> cases socket <;> simp [selectOne, Ready, and_assoc]

/-- What is reported for a descriptor. -/
theorem revents_iff : revents c p s k = true ↔ events c s k = true ∧
    if skFirst ≤ s then p.socket = true ∧ Ready p true k else Ready p false k := by
  unfold revents
  by_cases hs : skFirst ≤ s
  · have hany : events c s k = true → events c s .read = true ∨ events c s .write = true ∨ events c s .except = true := by
      cases k <;> simp +contextual
    by_cases hp : p.socket = true
    · by_cases hev : events c s .read = true ∨ events c s .write = true ∨ events c s .except = true
      · simp [hs, hp, hev, selectOne_iff]
      · have hk : events c s k ≠ true := fun h => hev (hany h)
        simp [hs, hp, hev, hk, selectOne_iff]
    · simp [hs, hp, selectOne_iff]
  · simp [hs, selectOne_iff]

theorem events_iff : events c s k = true ↔ ∃ S, c.fds k = some S ∧ s ∈ S := by
  unfold events
  cases c.fds k <;> simp

/-- The descriptors below `n` that are found ready. -/
def readySet (c : Call) (probe : ℕ → Probe) (n : ℕ) (k : Kind) : Finset ℕ :=
  (Finset.range n).filter fun s => revents c (probe s) s k

theorem sum_kind (f : Kind → ℕ) : ∑ k, f k = f .read + f .write + f .except := by
  rw [show (Finset.univ : Finset Kind) = {.read, .write, .except} from rfl]
  simp [Finset.sum_insert, add_assoc]

theorem readySet_succ : readySet c probe (n + 1) k =
    if revents c (probe n) n k then insert n (readySet c probe n k) else readySet c probe n k := by
  unfold readySet
  rw [Finset.range_add_one, Finset.filter_insert]

theorem card_readySet_succ : (readySet c probe (n + 1) k).card =
    (readySet c probe n k).card + (revents c (probe n) n k).toNat := by
  rw [readySet_succ]
  have hn : n ∉ readySet c probe n k := by simp [readySet]
  cases revents c (probe n) n k <;> simp [hn]

/-- **A pass from cleared sets.** -/
theorem foldl_passStep : (List.range n).foldl (passStep c probe) {} =
    { tmp := readySet c probe n, count := ∑ k, (readySet c probe n k).card } := by
  induction n with
  | zero =>
    have h0 (k : Kind) : readySet c probe 0 k = ∅ := rfl
    simp only [h0, Finset.card_empty, Finset.sum_const_zero, List.range_zero, List.foldl_nil, Work.mk.injEq, and_true]
    funext k
    exact (h0 k).symm
  | succ n ih =>
    rw [List.range_succ, List.foldl_append, ih, List.foldl_cons, List.foldl_nil, passStep]
    congr 1
    · funext k
      exact readySet_succ.symm
    · dsimp only
      rw [sum_kind, sum_kind, card_readySet_succ, card_readySet_succ, card_readySet_succ]
      omega

/-- What the pass `n` finds. -/
def foundSet (c : Call) (e : Outside) (n : ℕ) : Kind → Finset ℕ := readySet c (e.probe n) (numFd c.nfds)

theorem runPass_eq : runPass c (e.probe n) {} = { tmp := foundSet c e n, count := ∑ k, (foundSet c e n k).card } :=
  foldl_passStep

theorem mem_foundSet : s ∈ foundSet c e n k ↔ (∃ S, c.fds k = some S ∧ s ∈ S) ∧ Found c e n k s := by
  rw [foundSet, readySet, Finset.mem_filter, Finset.mem_range, revents_iff, events_iff, Found]
  tauto

theorem count_pos_iff : 0 < ∑ k, (foundSet c e n k).card ↔ SomeFound c e n := by
  rw [Finset.sum_pos_iff]
  constructor
  · rintro ⟨k, -, hk⟩
    obtain ⟨s, hs⟩ := Finset.card_pos.mp hk
    obtain ⟨⟨S, hS, hm⟩, hf⟩ := mem_foundSet.mp hs
    exact ⟨k, S, s, hS, hm, hf⟩
  · rintro ⟨k, S, s, hS, hm, hf⟩
    exact ⟨k, Finset.mem_univ k, Finset.card_pos.mpr ⟨s, mem_foundSet.mpr ⟨⟨S, hS, hm⟩, hf⟩⟩⟩

theorem mem_copyOut : s ∈ copyOut n tmp fds ↔ if s < n then s ∈ tmp else s ∈ fds := by
  unfold copyOut
  induction n with
  | zero => simp
  | succ n ih =>
    rw [List.range_succ, List.foldl_append, List.foldl_cons, List.foldl_nil]
    generalize (List.range n).foldl (fun out s => if s ∈ tmp then insert s out else out.erase s) fds = out at ih ⊢
    rcases lt_trichotomy s n with h | rfl | h
    · have hne : s ≠ n := h.ne
      have hs : s < n + 1 := Nat.lt_succ_of_lt h
      by_cases hn : n ∈ tmp <;> simp [hn, hne, hs, ih, h]
    · by_cases hs : s ∈ tmp <;> simp [hs]
    · have hne : s ≠ n := h.ne'
      have hs : ¬s < n + 1 := by omega
      have hs' : ¬s < n := by omega
      by_cases hn : n ∈ tmp <;> simp [hn, hne, hs, ih, hs']

/-! ## Times -/

/-- `expiry` is that of the call, and normalised. -/
def IsExpiry (c : Call) (e : Outside) : Option TimeVal → Prop
  | none => c.timeout = none
  | some x => ∃ t, c.timeout = some t ∧ x.micros = e.start + t.micros ∧ 0 ≤ x.usec ∧ x.usec < 1000000

theorem micros_gettimeofday (t : ℕ) : (gettimeofday t).micros = t := by
  unfold gettimeofday TimeVal.micros
  dsimp only
  omega

theorem expiryOf_spec : (ExpiryFits c e → c.timeout = some t → ∃ x,
    expiryOf (gettimeofday e.start) t = some x ∧ IsExpiry c e (some x)) ∧
    (¬ExpiryFits c e → c.timeout = some t → expiryOf (gettimeofday e.start) t = none) := by
  have hiff (ht : c.timeout = some t) : ExpiryFits c e ↔
      ¬(maxLong < (gettimeofday e.start).sec + t.sec ∨ maxLong < (gettimeofday e.start).usec + t.usec ∨
        maxLong < (gettimeofday e.start).sec + t.sec + ((gettimeofday e.start).usec + t.usec) / 1000000) := by
    have hdiv : (e.start + t.micros) / 1000000 =
        (gettimeofday e.start).sec + t.sec + ((gettimeofday e.start).usec + t.usec) / 1000000 := by
      unfold gettimeofday TimeVal.micros
      dsimp only
      omega
    rw [← hdiv, not_or, not_or, not_lt, not_lt, not_lt]
    exact ⟨fun h => h t ht, fun h t' ht' => by cases ht.symm.trans ht'; exact h⟩
  constructor
  · intro hf ht
    refine ⟨_, if_neg ((hiff ht).mp hf), t, ht, ?_, ?_, ?_⟩
    · unfold gettimeofday TimeVal.micros
      dsimp only
      omega
    · dsimp only
      omega
    · dsimp only
      omega
  · intro hf ht
    exact if_pos (not_not.mp (mt (hiff ht).mpr hf))

theorem expired_iff (hx : 0 ≤ x.usec ∧ x.usec < 1000000) (now : ℕ) :
    expired (gettimeofday now) x = true ↔ x.micros ≤ now := by
  unfold expired gettimeofday TimeVal.micros
  simp only [decide_eq_true_eq]
  omega

theorem any_expired (h : IsExpiry c e expiry) : expiry.any (expired (gettimeofday (e.clock n))) = true ↔
    TimeOver c e n := by
  cases expiry with
  | none =>
    refine iff_of_false (by simp) fun ⟨t, ht, _⟩ => ?_
    rw [show c.timeout = none from h] at ht
    cases ht
  | some x =>
    obtain ⟨t, ht, hx, hu⟩ := h
    rw [Option.any_some, expired_iff hu, hx]
    exact ⟨fun h => ⟨t, ht, h⟩, fun ⟨t', ht', h⟩ => by cases ht.symm.trans ht'; exact h⟩

/-- **The time left**: the order of the arguments is wrong. -/
theorem timeLeft_iff {float : Bool} {now : ℕ} (h : (now : ℤ) < x.micros) :
    (timeLeft float (gettimeofday now) x).micros = x.micros - now ∧
        0 ≤ (timeLeft float (gettimeofday now) x).usec ∧ (timeLeft float (gettimeofday now) x).usec < 1000000 ↔
      LuckyTime float (x.micros - now) := by
  cases float with
  | false =>
    have hdiff : (timevalDiff2 (gettimeofday now) x).micros = now - x.micros := by
      rw [← micros_gettimeofday now]
      unfold timevalDiff2 TimeVal.micros
      dsimp only
      split_ifs <;> dsimp only at * <;> omega
    refine iff_of_false (fun hc => ?_) fun hl => by cases hl.1
    have heq : (timevalDiff2 (gettimeofday now) x).micros = x.micros - now := hc.1
    omega
  | true =>
    have hrem : timevalDiff (gettimeofday now) x = -(x.micros - now) := by
      rw [← micros_gettimeofday now]
      unfold timevalDiff TimeVal.micros
      omega
    unfold timeLeft
    rw [if_pos rfl, hrem]
    generalize hd : x.micros - (now : ℤ) = d
    have hpos : 0 < d := by omega
    have hsec : (-d).tdiv 1000000 = -(d / 1000000) := by
      rw [Int.neg_tdiv, Int.tdiv_eq_ediv_of_nonneg hpos.le]
    have hu : ((BitVec.ofInt 32 (-d)).toNat : ℤ) = (-d) % 4294967296 := by
      rw [BitVec.toNat_ofInt]
      omega
    unfold TimeVal.micros LuckyTime
    dsimp only
    rw [hsec]
    push_cast
    rw [hu]
    simp only [true_and]
    by_cases hsmall : d < 1000000
    · have hq : d / 1000000 = 0 := by omega
      have hm : -d % 4294967296 = 4294967296 - d := by omega
      rw [hq, hm]
      omega
    · refine iff_of_false (fun hc => ?_) (by omega)
      have := hc.2.2
      omega

/-! ## The loop -/

/-- What is returned when the pass `n` finds something, and when the time is over. -/
def foundResult (c : Call) (e : Outside) (expiry : Option TimeVal) (n : ℕ) : Result where
  ret := (∑ k, (foundSet c e n k).card : ℕ)
  fds k := (c.fds k).map (copyOut (numFd c.nfds) (foundSet c e n k))
  timeout := expiry.map (timeLeft c.float (gettimeofday (e.clock n)))
  pass := n

def overResult (c : Call) (n : ℕ) : Result where
  ret := 0
  fds k := (c.fds k).map (copyOut (numFd c.nfds) ∅)
  timeout := c.timeout
  pass := n

theorem foundSet_eq_empty (h : ¬SomeFound c e n) (k : Kind) : foundSet c e n k = ∅ := by
  rw [← count_pos_iff, Nat.not_lt, Nat.le_zero, Finset.sum_eq_zero_iff] at h
  exact Finset.card_eq_zero.mp (h k (Finset.mem_univ k))

section Pass

variable (h : IsExpiry c e expiry)

theorem selectLoop_found (hs : SomeFound c e n) :
    selectLoop c e expiry (fuel + 1) n {} = .returned (foundResult c e expiry n) := by
  rw [selectLoop, runPass_eq]
  exact if_pos (count_pos_iff.mpr hs)

include h

theorem selectLoop_over (hs : ¬SomeFound c e n) (ho : TimeOver c e n) :
    selectLoop c e expiry (fuel + 1) n {} = .returned (overResult c n) := by
  rw [selectLoop, runPass_eq]
  dsimp only
  rw [if_neg (count_pos_iff.not.mpr hs), if_pos ((any_expired h).mpr ho)]
  rfl

theorem selectLoop_signal (hs : ¬SomeFound c e n) (ho : ¬TimeOver c e n) (hn : e.signal n = true) :
    selectLoop c e expiry (fuel + 1) n {} = .returned ⟨-1, c.fds, c.timeout, n⟩ := by
  rw [selectLoop, runPass_eq]
  dsimp only
  rw [if_neg (count_pos_iff.not.mpr hs), if_neg ((any_expired h).not.mpr ho), if_pos hn]

/-- A pass that finds nothing leaves the sets cleared. -/
theorem selectLoop_goesOn (hg : GoesOn c e n) :
    selectLoop c e expiry (fuel + 1) n {} = selectLoop c e expiry fuel (n + 1) {} := by
  obtain ⟨hs, ho, hn⟩ := hg
  have hcount : ∑ k, (foundSet c e n k).card = 0 := Nat.eq_zero_of_not_pos (count_pos_iff.not.mpr hs)
  have htmp : foundSet c e n = fun _ => ∅ := by
    funext k
    exact foundSet_eq_empty hs k
  rw [selectLoop, runPass_eq]
  dsimp only
  rw [if_neg (count_pos_iff.not.mpr hs), if_neg ((any_expired h).not.mpr ho), if_neg (by rw [hn]; decide), hcount, htmp]

theorem selectLoop_skip (hg : ∀ m < n, GoesOn c e m) :
    selectLoop c e expiry (fuel + n) 0 {} = selectLoop c e expiry fuel n {} := by
  induction n generalizing fuel with
  | zero => rfl
  | succ n ih =>
    rw [Nat.add_comm n 1, ← Nat.add_assoc, ih fun m hm => hg m (Nat.lt_succ_of_lt hm),
      selectLoop_goesOn h (hg n n.lt_succ_self), Nat.add_comm 1 n]

end Pass

/-! ## Results -/

/-- The sets that are returned are right exactly if no bit was set that is not looked at. -/
theorem ready_iff {R : Kind → Finset ℕ} (hR : ∀ k s, s ∈ R k ↔ (∃ S, c.fds k = some S ∧ s ∈ S) ∧ Found c e n k s) :
    (∀ k S, c.fds k = some S → ∃ R', (c.fds k).map (copyOut (numFd c.nfds) (R k)) = some R' ∧
      ∀ s, s ∈ R' ↔ s ∈ S ∧ Found c e n k s) ↔ NoHighBits c := by
  constructor
  · intro h k S hS s hs
    obtain ⟨R', hR', hmem⟩ := h k S hS
    rw [hS, Option.map_some, Option.some.injEq] at hR'
    by_contra hn
    have hin : s ∈ R' := by
      rw [← hR', mem_copyOut, if_neg hn]
      exact hs
    exact hn ((hmem s).mp hin).2.1
  · intro h k S hS
    refine ⟨_, by rw [hS]; rfl, fun s => ?_⟩
    rw [mem_copyOut]
    split_ifs with hn
    · rw [hR k s, hS]
      simp
    · exact iff_of_false (fun hs => hn (h k S hS s hs)) fun hs => hn (h k S hS s hs.1)

/-- The count is then that of the sets. -/
theorem counted_of {R : Kind → Finset ℕ} (hR : ∀ k s, s ∈ R k ↔ (∃ S, c.fds k = some S ∧ s ∈ S) ∧ Found c e n k s)
    (hb : NoHighBits c) :
    ∑ k, (R k).card = ∑ k, ((c.fds k).map (copyOut (numFd c.nfds) (R k))).elim 0 Finset.card := by
  refine Finset.sum_congr rfl fun k _ => ?_
  cases hS : c.fds k with
  | none =>
    have hempty : R k = ∅ := by
      ext s
      simp [hR k s, hS]
    rw [hempty]
    rfl
  | some S =>
    have hcopy : copyOut (numFd c.nfds) (R k) S = R k := by
      ext s
      rw [mem_copyOut]
      split_ifs with hn
      · rfl
      · exact iff_of_false (fun hs => hn (hb k S hS s hs)) fun hs => hn ((hR k s).mp hs).2.1
    rw [Option.map_some, hcopy]
    rfl

/-- The time that is left is right. -/
def LeftRight (c : Call) (e : Outside) (n : ℕ) : Prop :=
  ∀ t, c.timeout = some t → (e.clock n : ℤ) < e.start + t.micros → LuckyTime c.float (e.start + t.micros - e.clock n)

theorem foundResult_exact_iff (h : IsExpiry c e expiry) (hs : SomeFound c e n) :
    ExactResult c e (foundResult c e expiry n) ↔ NoHighBits c ∧ LeftRight c e n := by
  have hpos : 0 < (foundResult c e expiry n).ret := Int.natCast_pos.mpr (count_pos_iff.mpr hs)
  have hleft (t : TimeVal) (ht : c.timeout = some t) (hlt : (e.clock n : ℤ) < e.start + t.micros) :
      (∃ t', (foundResult c e expiry n).timeout = some t' ∧ t'.micros = e.start + t.micros - e.clock n ∧
        0 ≤ t'.usec ∧ t'.usec < 1000000) ↔ LuckyTime c.float (e.start + t.micros - e.clock n) := by
    cases expiry with
    | none => exact absurd (h.symm.trans ht) nofun
    | some x =>
      obtain ⟨t₀, ht₀, hx, -⟩ := h
      cases ht.symm.trans ht₀
      rw [← hx] at hlt ⊢
      rw [← timeLeft_iff hlt]
      exact ⟨fun ⟨t', ht', h⟩ => by cases ht'; exact h, fun h => ⟨_, rfl, h⟩⟩
  constructor
  · intro hex
    exact ⟨(ready_iff fun k s => mem_foundSet).mp hex.ready,
      fun t ht hlt => (hleft t ht hlt).mp (hex.left hpos t ht hlt)⟩
  · rintro ⟨hb, hl⟩
    exact {
      counted := congrArg Nat.cast (counted_of (fun k s => mem_foundSet) hb)
      ready := (ready_iff fun k s => mem_foundSet).mpr hb
      elapsed := fun h0 => absurd h0 hpos.ne'
      left := fun _ t ht hlt => (hleft t ht hlt).mpr (hl t ht hlt) }

theorem overResult_exact_iff (hs : ¬SomeFound c e n) (ho : TimeOver c e n) :
    ExactResult c e (overResult c n) ↔ NoHighBits c := by
  have hempty (k : Kind) (s : ℕ) : s ∈ (∅ : Finset ℕ) ↔ (∃ S, c.fds k = some S ∧ s ∈ S) ∧ Found c e n k s :=
    iff_of_false (Finset.notMem_empty s) fun ⟨⟨S, hS, hm⟩, hf⟩ => hs ⟨k, S, s, hS, hm, hf⟩
  constructor
  · intro hex
    exact (ready_iff (R := fun _ => ∅) hempty).mp hex.ready
  · intro hb
    obtain ⟨t, ht, hle⟩ := ho
    exact {
      counted := by
        have hc := counted_of (R := fun _ => ∅) hempty hb
        simp only [Finset.card_empty, Finset.sum_const_zero] at hc
        exact congrArg Nat.cast hc
      ready := (ready_iff (R := fun _ => ∅) hempty).mpr hb
      elapsed := fun _ => ⟨t, ht, by change t.micros ≤ (e.clock n : ℤ) - e.start; omega⟩
      left := fun h => absurd h (lt_irrefl 0) }

/-! ## Calls -/

/-- The timeout is not negative. -/
def NonNegative (c : Call) : Prop := ∀ t, c.timeout = some t → 0 ≤ t.sec ∧ 0 ≤ t.usec

theorem selectS_loop (hn : NonNegative c) (hf : ExpiryFits c e) :
    ∃ expiry, IsExpiry c e expiry ∧ ∀ fuel, selectS c e fuel = selectLoop c e expiry fuel 0 {} := by
  cases ht : c.timeout with
  | none => exact ⟨none, ht, fun fuel => by rw [selectS, ht]⟩
  | some t =>
    obtain ⟨h0, h1⟩ := hn t ht
    obtain ⟨x, hx, hex⟩ := expiryOf_spec.1 hf ht
    refine ⟨some x, hex, fun fuel => ?_⟩
    rw [selectS, ht]
    dsimp only
    rw [if_neg (by omega), hx]

theorem selectS_undefined (hn : NonNegative c) (hf : ¬ExpiryFits c e) : selectS c e fuel = .undefined := by
  cases ht : c.timeout with
  | none => exact absurd (fun t h => by rw [ht] at h; cases h) hf
  | some t =>
    obtain ⟨h0, h1⟩ := hn t ht
    rw [selectS, ht]
    dsimp only
    rw [if_neg (by omega), expiryOf_spec.2 hf ht]

/-- **Exact results**: exactly in which calls. -/
theorem select_exact_iff (c : Call) (e : Outside) (hn : NonNegative c) : SelectExact c e ↔ ExpiryFits c e ∧
    ∀ n, (∀ m < n, GoesOn c e m) → (SomeFound c e n → NoHighBits c ∧ LeftRight c e n) ∧
      (TimeOver c e n → NoHighBits c) := by
  by_cases hf : ExpiryFits c e
  · obtain ⟨expiry, hex, hloop⟩ := selectS_loop hn hf
    unfold SelectExact
    simp only [hloop, hf, true_and]
    constructor
    · intro h n hg
      have hrun := h (1 + n)
      rw [selectLoop_skip hex hg] at hrun
      by_cases hs : SomeFound c e n
      · rw [selectLoop_found hs] at hrun
        have hexact := hrun.resolve_left fun h0 => by
          have hpos := count_pos_iff.mpr hs
          have h0 : ((∑ k, (foundSet c e n k).card : ℕ) : ℤ) = -1 := h0
          omega
        have hboth := (foundResult_exact_iff hex hs).mp hexact
        exact ⟨fun _ => hboth, fun _ => hboth.1⟩
      · refine ⟨fun hs' => absurd hs' hs, fun ho => ?_⟩
        rw [selectLoop_over hex hs ho] at hrun
        exact (overResult_exact_iff hs ho).mp (hrun.resolve_left fun h0 => absurd (show (0 : ℤ) = -1 from h0) (by decide))
    · intro h fuel
      -- over the passes that are left, all before the present one having gone on
      suffices hall : ∀ fuel n, (∀ m < n, GoesOn c e m) →
          match selectLoop c e expiry fuel n {} with
          | .running => True
          | .undefined => False
          | .returned r => r.ret = -1 ∨ ExactResult c e r from hall fuel 0 fun m hm => absurd hm m.not_lt_zero
      intro fuel
      induction fuel with
      | zero => exact fun _ _ => trivial
      | succ fuel ih =>
        intro n hg
        obtain ⟨hfound, hover⟩ := h n hg
        by_cases hs : SomeFound c e n
        · rw [selectLoop_found hs]
          exact .inr ((foundResult_exact_iff hex hs).mpr (hfound hs))
        by_cases ho : TimeOver c e n
        · rw [selectLoop_over hex hs ho]
          exact .inr ((overResult_exact_iff hs ho).mpr (hover ho))
        by_cases hsig : e.signal n = true
        · rw [selectLoop_signal hex hs ho hsig]
          exact .inl rfl
        have hgo : GoesOn c e n := ⟨hs, ho, by simpa using hsig⟩
        rw [selectLoop_goesOn hex hgo]
        refine ih (n + 1) fun m hm => ?_
        rcases Nat.lt_succ_iff_lt_or_eq.mp hm with hm | rfl
        · exact hg m hm
        · exact hgo
  · refine iff_of_false (fun h => ?_) fun h => hf h.1
    have h0 := h 0
    rw [selectS_undefined hn hf] at h0
    exact h0

/-- One descriptor is ready for reading, and `t` microseconds have gone by after the first pass. -/
def oneReady (timeout : TimeVal) : Call := ⟨4, fun k => if k = .read then some {3} else none, some timeout, true⟩
def readyAfter (t : ℕ) : Outside :=
  ⟨1000000, fun _ => 1000000 + t, fun _ s => { readSelect := s = 3 }, fun _ => false⟩

/-- A call that only looks. -/
theorem select_exact_look : SelectExact (oneReady ⟨0, 0⟩) (readyAfter 0) := by
  have hn : NonNegative (oneReady ⟨0, 0⟩) := fun t ht => by
    cases ht
    decide
  refine (select_exact_iff _ _ hn).mpr ⟨fun t ht => ?_, fun n _ => ?_⟩
  · cases ht
    decide
  · have hb : NoHighBits (oneReady ⟨0, 0⟩) := fun k S hS s hs => by
      cases k <;> simp [oneReady] at hS
      rw [← hS, Finset.mem_singleton] at hs
      rw [hs]
      decide
    refine ⟨fun _ => ⟨hb, fun t ht hlt => ?_⟩, fun _ => hb⟩
    cases ht
    exact absurd hlt (by simp [readyAfter, TimeVal.micros])

/-- With four of five seconds left, `*timeout` becomes negative. -/
theorem time_left_negative : ¬SelectExact (oneReady ⟨5, 0⟩) (readyAfter 1000000) := by
  intro h
  have hn : NonNegative (oneReady ⟨5, 0⟩) := fun t ht => by
    cases ht
    decide
  have hf : ExpiryFits (oneReady ⟨5, 0⟩) (readyAfter 1000000) := fun t ht => by
    cases ht
    decide
  have hs : SomeFound (oneReady ⟨5, 0⟩) (readyAfter 1000000) 0 :=
    ⟨.read, {3}, 3, rfl, Finset.mem_singleton_self 3, by decide, by decide, .inl rfl⟩
  obtain ⟨expiry, hex, hloop⟩ := selectS_loop hn hf
  have hrun := h 1
  rw [hloop, selectLoop_found hs] at hrun
  have hexact := hrun.resolve_left fun h0 => by
    have hpos := count_pos_iff.mpr hs
    have h0 : ((∑ k, (foundSet (oneReady ⟨5, 0⟩) (readyAfter 1000000) 0 k).card : ℕ) : ℤ) = -1 := h0
    omega
  have hlucky := ((foundResult_exact_iff hex hs).mp hexact).2 ⟨5, 0⟩ rfl (by decide)
  revert hlucky
  unfold LuckyTime
  decide

end Watt32.SelectLoop
