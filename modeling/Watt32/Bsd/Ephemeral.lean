import Watt32.Bsd.Ports

/-!
# Ephemeral ports

`find_free_port` for a request that leaves the port open: 0 for a normal port, 65535 for a special
one. The loop has no exit for the case that every port is busy.

* `searchPort_eq_some`, `searchPort_eq_none`: the port at which the loop stops, and when it does not.
* `Allocates`: what a request is to come to.
* **`findFreePort_allocates_iff`**: when it does.
-/

namespace Watt32.Bsd

variable {maxPort : Word} {busy : Word → Bool} {n : ℕ} {p q : Word}

/-! ## The loop -/

/-- The loop goes on behind the port. -/
def PassesOver (maxPort : Word) (busy : Word → Bool) (p : Word) : Prop := p ≤ maxPort ∧ busy p = true

instance : Decidable (PassesOver maxPort busy p) := inferInstanceAs (Decidable (_ ∧ _))

theorem searchPort_succ : searchPort maxPort busy (n + 1) p =
    if PassesOver maxPort busy p then searchPort maxPort busy n (p + 1) else some p := rfl

/-- **The port at which the loop stops** is the first that it does not pass over. -/
theorem searchPort_eq_some : searchPort maxPort busy n p = some q ↔
    ∃ k < n, q = p + BitVec.ofNat 16 k ∧ ¬PassesOver maxPort busy q ∧
      ∀ j < k, PassesOver maxPort busy (p + BitVec.ofNat 16 j) := by
  induction n generalizing p with
  | zero => simp [searchPort]
  | succ n ih =>
    have shift (j : ℕ) : p + 1 + BitVec.ofNat 16 j = p + BitVec.ofNat 16 (j + 1) := by
      rw [BitVec.ofNat_add, BitVec.add_comm (BitVec.ofNat 16 j), BitVec.add_assoc]
      rfl
    rw [searchPort_succ]
    by_cases hp : PassesOver maxPort busy p
    · rw [if_pos hp, ih]
      constructor
      · rintro ⟨k, hk, rfl, hq, hall⟩
        refine ⟨k + 1, by omega, shift k, shift k ▸ hq, fun j hj => ?_⟩
        cases j with
        | zero => simpa using hp
        | succ j => exact shift j ▸ hall j (by omega)
      · rintro ⟨k, hk, rfl, hq, hall⟩
        cases k with
        | zero => exact absurd (by simpa using hp) hq
        | succ k => exact ⟨k, by omega, (shift k).symm, hq, fun j hj => shift j ▸ hall (j + 1) (by omega)⟩
    · rw [if_neg hp, Option.some_inj]
      constructor
      · rintro rfl
        exact ⟨0, by omega, by simp, hp, fun j hj => absurd hj j.not_lt_zero⟩
      · rintro ⟨k, hk, rfl, hq, hall⟩
        cases k with
        | zero => simp
        | succ k => exact absurd (by simpa using hall 0 (by omega)) hp

/-- The loop does not end when it passes over every port. -/
theorem searchPort_eq_none (h : ∀ p, PassesOver maxPort busy p) : searchPort maxPort busy n p = none := by
  induction n generalizing p with
  | zero => rfl
  | succ n ih => rw [searchPort_succ, if_pos (h p), ih]

/-- The turn for a port. -/
theorem add_turn (p r : Word) : p + BitVec.ofNat 16 (r - p).toNat = r := by
  rw [BitVec.ofNat_toNat, BitVec.setWidth_eq, BitVec.add_comm, BitVec.sub_add_cancel]

/-- There is a turn for every port. -/
theorem searchPort_isSome (h : ¬PassesOver maxPort busy q) :
    ∃ r, searchPort maxPort busy 65536 p = some r := by
  have hq : ¬PassesOver maxPort busy (p + BitVec.ofNat 16 (q - p).toNat) := by rwa [add_turn]
  have hex : ∃ k, ¬PassesOver maxPort busy (p + BitVec.ofNat 16 k) := ⟨_, hq⟩
  have hlt : Nat.find hex < 65536 := (Nat.find_min' hex hq).trans_lt (q - p).isLt
  exact ⟨_, searchPort_eq_some.mpr ⟨_, hlt, rfl, Nat.find_spec hex, fun j hj => not_not.mp (Nat.find_min hex hj)⟩⟩

/-- **Where the loop stops**: at the first port from `p` on that it does not pass over, or from 0 on
when it passes over all from `p` on. -/
theorem searchPort_stops (h : searchPort maxPort busy 65536 p = some q) : ¬PassesOver maxPort busy q ∧
    ((p ≤ q ∧ ∀ r, p ≤ r → r < q → PassesOver maxPort busy r) ∨
      (q < p ∧ ∀ r, p ≤ r ∨ r < q → PassesOver maxPort busy r)) := by
  obtain ⟨k, hk, rfl, hq, hall⟩ := searchPort_eq_some.mp h
  refine ⟨hq, ?_⟩
  have hpq : (p + BitVec.ofNat 16 k).toNat = (p.toNat + k) % 65536 := by simp
  have hp := p.isLt
  by_cases hw : p.toNat + k < 65536
  · refine .inl ⟨by rw [BitVec.le_def]; omega, fun r h₁ h₂ => ?_⟩
    rw [← add_turn p r]
    exact hall _ (by bv_omega)
  · refine .inr ⟨by rw [BitVec.lt_def]; omega, fun r hr => ?_⟩
    rw [← add_turn p r]
    exact hall _ (by bv_omega)

/-! ## Requests -/

/-- The lowest port that a request may get. -/
def lowestPort (port : Word) : Word := if port = 0 then 1025 else 513

/-- The port at which the loop begins. -/
def startPort (e : CallEnv) (port : Word) : Word := if port = 0 then e.loPort else 513

/-- The port is in the range of the request. -/
def InRange (e : CallEnv) (port p : Word) : Prop := lowestPort port ≤ p ∧ p ≤ e.maxPort

/-- No socket has the port, and it does not linger, if that matters. -/
def Vacant (ports : Ports) (allsocs : Word → Bool) (linger : Bool) (p : Word) : Prop :=
  allsocs p = false ∧ (linger = true → ¬ports.inUse p)

/-- **The request**: the call returns a vacant port of the range, or port 0, which is no port, and
there is none. -/
def Allocates (e : CallEnv) (ports : Ports) (allsocs : Word → Bool) (port : Word) (linger : Bool) : Prop :=
  ∃ r, findFreePort e ports allsocs port linger = some r ∧
    (InRange e port r.2 ∧ Vacant ports allsocs linger r.2 ∨
      r.2 = 0 ∧ ∀ p, InRange e port p → ¬Vacant ports allsocs linger p)

/-- When it is met. With the bit-array: a port behind the first is vacant; or the loop comes to 65535
and begins again at 0, where the first vacant port is in the range, or 0 and the range has none.
Without it the request itself is the answer. -/
def Finds (e : CallEnv) (ports : Ports) (allsocs : Word → Bool) (port : Word) (linger : Bool) : Prop :=
  match ports with
  | some _ =>
    (∃ p, startPort e port ≤ p ∧ p ≤ e.maxPort ∧ Vacant ports allsocs linger p) ∨
      e.maxPort = 65535 ∧
        ((∃ p, InRange e port p ∧ Vacant ports allsocs linger p) ∧
            (∀ p, p < lowestPort port → ¬Vacant ports allsocs linger p) ∨
          (∀ p, InRange e port p → ¬Vacant ports allsocs linger p) ∧ Vacant ports allsocs linger 0)
  | none =>
    InRange e port port ∧ Vacant ports allsocs linger port ∨
      port = 0 ∧ ∀ p, InRange e port p → ¬Vacant ports allsocs linger p

variable {e : CallEnv} {allsocs : Word → Bool} {port : Word} {linger : Bool} {bits : Word → Bool}

theorem vacant_some : Vacant (some bits) allsocs linger p ↔ ¬((linger ∧ bits p) ∨ allsocs p) := by
  simp [Vacant, Ports.inUse, and_comm, imp_iff_not_or]

/-- The loop of a request. -/
theorem findFreePort_some (hp : port = 0 ∨ port = 65535) :
    findFreePort e (some bits) allsocs port linger =
      (searchPort e.maxPort (fun p => linger ∧ bits p ∨ allsocs p) 65536 (startPort e port)).map fun p =>
        (some (setPort bits p true), p) := by
  unfold findFreePort startPort
  dsimp only
  rw [if_neg (by rcases hp with rfl | rfl <;> simp)]

/-- `MAX_PORT` is 65535 or 5000, and `Random (MIN_PORT, 1500)` is at most 1500. -/
structure PortRange (e : CallEnv) : Prop where
  first : 1025 ≤ e.loPort ∧ e.loPort ≤ 1500
  last : 1500 ≤ e.maxPort

theorem PortRange.start (h : PortRange e) (hp : port = 0 ∨ port = 65535) :
    0 < lowestPort port ∧ lowestPort port ≤ startPort e port ∧ startPort e port ≤ e.maxPort := by
  obtain ⟨⟨h₁, h₂⟩, h₃⟩ := h
  rcases hp with rfl | rfl
  · rw [lowestPort, startPort, if_pos rfl, if_pos rfl]
    bv_omega
  · rw [lowestPort, startPort, if_neg (by decide), if_neg (by decide)]
    bv_omega

/-- What is vacant the loop does not pass over, and conversely. -/
theorem passesOver_iff : PassesOver e.maxPort (fun p => linger ∧ bits p ∨ allsocs p) p ↔
    p ≤ e.maxPort ∧ ¬Vacant (some bits) allsocs linger p := by
  rw [vacant_some, not_not, PassesOver, decide_eq_true_iff]

/-- **The request with the bit-array.** -/
theorem allocates_some (he : PortRange e) (hp : port = 0 ∨ port = 65535) :
    Allocates e (some bits) allsocs port linger ↔ Finds e (some bits) allsocs port linger := by
  obtain ⟨h₀, h₁, h₂⟩ := he.start hp
  unfold Allocates Finds
  rw [findFreePort_some hp]
  simp only [Option.map_eq_some_iff]
  constructor
  · rintro ⟨_, ⟨q, hq, rfl⟩, hres⟩
    obtain ⟨hstop, ⟨hle, -⟩ | ⟨hlt, hall⟩⟩ := searchPort_stops hq
    · -- the loop did not begin again
      rcases hres with ⟨hr, hv⟩ | ⟨rfl, -⟩
      · exact .inl ⟨q, hle, hr.2, hv⟩
      · bv_omega
    · have hmax : e.maxPort = 65535 := by
        have := (hall 65535 (.inl (by bv_omega))).1
        bv_omega
      refine .inr ⟨hmax, ?_⟩
      rcases hres with ⟨hr, hv⟩ | ⟨rfl, hno⟩
      · refine .inl ⟨⟨q, hr, hv⟩, fun p hp => (passesOver_iff.mp (hall p (.inr ?_))).2⟩
        have := hr.1
        bv_omega
      · refine .inr ⟨hno, not_not.mp fun hv => hstop (passesOver_iff.mpr ⟨by bv_omega, hv⟩)⟩
  · have hpass {p : Word} (hv : Vacant (some bits) allsocs linger p) : ¬PassesOver e.maxPort
        (fun p => linger ∧ bits p ∨ allsocs p) p := fun h => (passesOver_iff.mp h).2 hv
    have hvac {q : Word} (h : ¬PassesOver e.maxPort (fun p => linger ∧ bits p ∨ allsocs p) q)
        (hm : q ≤ e.maxPort) : Vacant (some bits) allsocs linger q :=
      not_not.mp fun hv => h (passesOver_iff.mpr ⟨hm, hv⟩)
    rintro (⟨p, hsp, hpm, hv⟩ | ⟨hmax, ⟨⟨p, hr, hv⟩, hbelow⟩ | ⟨hno, hv⟩⟩)
    all_goals
      obtain ⟨q, hq⟩ := searchPort_isSome (p := startPort e port) (hpass hv)
      obtain ⟨hstop, hwhere⟩ := searchPort_stops hq
      refine ⟨_, ⟨q, hq, rfl⟩, ?_⟩
      dsimp only
    · rcases hwhere with ⟨hle, hall⟩ | ⟨-, hall⟩
      · have hqp : q ≤ p := BitVec.not_lt.mp fun hlt => hpass hv (hall p hsp hlt)
        have hqm : q ≤ e.maxPort := by bv_omega
        exact .inl ⟨⟨by bv_omega, hqm⟩, hvac hstop hqm⟩
      · exact absurd (hall p (.inl hsp)) (hpass hv)
    · have hqm : q ≤ e.maxPort := by bv_omega
      have hqv := hvac hstop hqm
      exact .inl ⟨⟨BitVec.not_lt.mp fun hlt => hbelow q hlt hqv, hqm⟩, hqv⟩
    · have hqv := hvac hstop (by bv_omega)
      rcases hwhere with ⟨hle, -⟩ | ⟨-, hall⟩
      · exact absurd hqv (hno q ⟨by bv_omega, by bv_omega⟩)
      · by_cases h0 : q = 0
        · exact .inr ⟨h0, hno⟩
        · exact absurd (hall 0 (.inr (by bv_omega))) (hpass hv)

/-- **Ephemeral ports**: exactly when a request is met. -/
theorem findFreePort_allocates_iff (e : CallEnv) (ports : Ports) (allsocs : Word → Bool) (port : Word)
    (linger : Bool) (he : PortRange e) (hp : port = 0 ∨ port = 65535) :
    Allocates e ports allsocs port linger ↔ Finds e ports allsocs port linger := by
  cases ports with
  | some bits => exact allocates_some he hp
  | none =>
    have hret : findFreePort e none allsocs port linger = some (none, port) := rfl
    unfold Allocates Finds
    rw [hret]
    constructor
    · rintro ⟨r, hr, h⟩
      obtain rfl := Option.some_inj.mp hr
      exact h
    · exact fun h => ⟨_, rfl, h⟩

/-- A request while 1025 is vacant. -/
theorem findFreePort_allocates_first :
    Allocates {} (some fun _ => false) (fun _ => false) 0 true :=
  (findFreePort_allocates_iff {} _ _ 0 true ⟨⟨by decide, by decide⟩, by decide⟩ (.inl rfl)).mpr
    (.inl ⟨1025, by decide, by decide, rfl, fun _ => by simp [Ports.inUse]⟩)

/-- When every port lingers, the call does not return, and so reports nothing. -/
theorem all_busy_never_returns : findFreePort {} (some fun _ => true) (fun _ => false) 0 true = none ∧
    ¬Allocates {} (some fun _ => true) (fun _ => false) 0 true := by
  have hnone : findFreePort {} (some fun _ => true) (fun _ => false) 0 true = none := by
    rw [findFreePort_some (.inl rfl), searchPort_eq_none fun p => ⟨?_, ?_⟩]
    · rfl
    · exact BitVec.le_def.mpr (Nat.le_of_lt_succ p.isLt)
    · simp
  exact ⟨hnone, fun ⟨r, hr, _⟩ => by rw [hnone] at hr; cases hr⟩

end Watt32.Bsd
