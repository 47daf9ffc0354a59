import Watt32.Lib.Run
import Watt32.Lib.Slots

/-!
# Multicast groups

`pcigmp.c`: the table of joined groups, and the daemon that reports them.

* `joinMcastGroup`, `leaveMcastGroup`: the calls.
* `Members`, `memberStep`: the table, and how often each group was joined and not left.
* `Counted`: the table has each joined group once, with its count, and the daemon runs while there is one.
* `CallOk`: the calls that keep it so.
* **`members_counted_iff`**: a run obeys the law exactly if all its calls are such.
-/

namespace Watt32.Igmp

open Machine

abbrev Byte := BitVec 8
abbrev Dword := BitVec 32

/-! ## The table -/

/-- `struct MultiCast`. -/
structure MultiCast where
  ip : Dword := 0
  ethaddr : List Byte := []
  processes : ℕ := 0
  active : Bool := false

/-- `mcast_list`, `daemon_on`, whether `check_mcast_reports` is in `daemon_list`, and (a ghost) the
groups that the link layer was told to leave. -/
structure Groups where
  mcastList : ℤ → MultiCast := fun _ => {}
  daemonOn : Bool := false
  daemon : Bool := false
  linkLeft : List Dword := []

/-- What a call takes from outside: `_multicast_on`, whether `daemon_list` has a free entry, and whether
the link layer does its part. -/
structure CallEnv where
  multicastOn : Bool := true
  daemonFree : Bool := true
  linkOk : Bool := true

/-- `IPMULTI_SIZE`. -/
def ipmultiSize : ℕ := 20

/-- `_ip4_is_multicast`. -/
def ip4IsMulticast (ip : Dword) : Bool := ip &&& 0xf0000000 = 0xe0000000

/-- `multi_to_eth`. -/
def multiToEth (ip : Dword) : List Byte :=
  let ip := ip &&& 0x7fffff
  [0x01, 0x00, 0x5e, (ip >>> 16).setWidth 8, (ip >>> 8).setWidth 8, ip.setWidth 8]

/-- The entry is this group. -/
def MultiCast.isGroup (mc : MultiCast) (ip : Dword) : Bool := mc.active ∧ mc.ip = ip

/-- The entry is put into the slot. -/
def Groups.put (g : Groups) (i : ℤ) (mc : MultiCast) : Groups :=
  { g with mcastList := Function.update g.mcastList i mc }

/-! ## The calls -/

/-- The entry of a group that is joined for the first time. -/
def newGroup (ip : Dword) : MultiCast :=
  { ip := ip, ethaddr := multiToEth ip, processes := 1, active := true }

/-- `DAEMON_ADD (check_mcast_reports)` unless it is on. -/
def startReports (e : CallEnv) (g : Groups) : Groups :=
  if g.daemonOn then g else { g with daemonOn := true, daemon := g.daemon || e.daemonFree }

/-- Where the loop of `join_mcast_group` ends: at the group or at a free slot. -/
def joinSlot (g : Groups) (ip : Dword) : Option ℤ :=
  Slots.find (fun i => (g.mcastList i).isGroup ip ∨ (g.mcastList i).active = false) ipmultiSize 0

/-- `join_mcast_group`. -/
def joinMcastGroup (e : CallEnv) (ip : Dword) (g : Groups) : Groups × Bool :=
  if e.multicastOn = false ∨ ip4IsMulticast ip = false then (g, false)
  else
    let g := startReports e g
    match joinSlot g ip with
    | none => (g, false)
    | some i =>
      let mc := g.mcastList i
      if mc.isGroup ip then
        (g.put i { mc with processes := if mc.processes < 255 then mc.processes + 1 else mc.processes }, true)
      else if e.linkOk then (g.put i (newGroup ip), true)
      else (g.put i { mc with ethaddr := multiToEth ip }, false)

/-- The call gets to `_eth_join_mcast_group`. -/
def linkJoins (e : CallEnv) (ip : Dword) (g : Groups) : Bool :=
  e.multicastOn ∧ ip4IsMulticast ip ∧
    (joinSlot g ip).any fun i => !(g.mcastList i).isGroup ip

/-- Where the loop of `leave_mcast_group` ends. -/
def leaveSlot (g : Groups) (ip : Dword) : Option ℤ :=
  Slots.find (fun i => (g.mcastList i).isGroup ip) ipmultiSize 0

/-- `num_total` there: the active entries up to the slot. -/
def numTotal (g : Groups) (i : ℤ) : ℕ :=
  ((List.range (i.toNat + 1)).filter fun j : ℕ => (g.mcastList j).active).length

/-- `leave_mcast_group`. -/
def leaveMcastGroup (e : CallEnv) (ip : Dword) (g : Groups) : Groups × Bool :=
  if e.multicastOn = false ∨ ip4IsMulticast ip = false then (g, false)
  else
    match leaveSlot g ip with
    | none => (g, false)
    | some i =>
      let mc := g.mcastList i
      if 1 < mc.processes then (g.put i { mc with processes := mc.processes - 1 }, true)
      else
        let left := { g.put i { mc with active := false } with linkLeft := g.linkLeft ++ [ip] }
        (if numTotal g i ≤ 1 then { left with daemonOn := false, daemon := false } else left, e.linkOk)

/-! ## Runs -/

/-- The calls. -/
inductive Op
  | join (e : CallEnv) (ip : Dword)
  | leave (e : CallEnv) (ip : Dword)

/-- The table, and (a ghost) how often each group was joined and not left. -/
structure Members where
  g : Groups := {}
  joined : Dword → ℕ := fun _ => 0

/-- One call. A call that fails does not count. -/
def memberStep (s : Members) : Op → Members
  | .join e ip =>
    let r := joinMcastGroup e ip s.g
    ⟨r.1, if r.2 then Function.update s.joined ip (s.joined ip + 1) else s.joined⟩
  | .leave e ip =>
    let r := leaveMcastGroup e ip s.g
    ⟨r.1, if r.2 then Function.update s.joined ip (s.joined ip - 1) else s.joined⟩

/-- The calls that do something. -/
def Acts (e : CallEnv) (ip : Dword) : Prop := e.multicastOn = true ∧ ip4IsMulticast ip = true

/-- The circumstances: the table is never full, no group is joined more than 254 times, and the link
layer does its part. -/
def Served (s : Members) : Op → Prop
  | .join e ip => e.linkOk = true ∧ joinSlot s.g ip ≠ none ∧ s.joined ip < 254
  | .leave e _ => e.linkOk = true

instance (s : Members) : (op : Op) → Decidable (Served s op)
  | .join _ _ => inferInstanceAs (Decidable (_ ∧ _ ∧ _))
  | .leave _ _ => inferInstanceAs (Decidable (_ = true))

/-! ## The law -/

/-- The slot is active. -/
def Active (g : Groups) (i : ℤ) : Prop := 0 ≤ i ∧ i < ipmultiSize ∧ (g.mcastList i).active = true

/-- The slot is active with this group. -/
def Holds (g : Groups) (ip : Dword) (i : ℤ) : Prop := Active g i ∧ (g.mcastList i).ip = ip

instance (g : Groups) (i : ℤ) : Decidable (Active g i) := inferInstanceAs (Decidable (_ ∧ _ ∧ _))

instance (g : Groups) (ip : Dword) (i : ℤ) : Decidable (Holds g ip i) :=
  inferInstanceAs (Decidable (_ ∧ _))

/-- Each group that is joined has one active entry with its count, no other has one, and the daemon is
registered exactly while there is one. -/
structure Counted (s : Members) : Prop where
  entry : ∀ ip, 0 < s.joined ip → ∃ i, Holds s.g ip i
  once : ∀ ip i j, Holds s.g ip i → Holds s.g ip j → i = j
  processes : ∀ ip i, Holds s.g ip i → (s.g.mcastList i).processes = s.joined ip
  absent : ∀ ip i, s.joined ip = 0 → ¬ Holds s.g ip i
  daemon : s.g.daemon = true ↔ ∃ i, Active s.g i

/-- The law at one step: it ends in such a table, and the link layer leaves a group only with the leave
that matches the last join. -/
structure CountedStep (s : Members) (op : Op) : Prop where
  counted : Counted (memberStep s op)
  link : (memberStep s op).g.linkLeft ≠ s.g.linkLeft → ∃ e ip, op = .leave e ip ∧ s.joined ip = 1 ∧
    (memberStep s op).g.linkLeft = s.g.linkLeft ++ [ip]

/-! ## The condition -/

/-- The calls that keep the law: a join meets no free slot before its group, and finds room for the
daemon if it is not registered; a last leave of the first active entry is that of the only one. -/
def CallOk (s : Members) : Op → Prop
  | .join e ip => Acts e ip → (∀ i, Holds s.g ip i → ∀ j, 0 ≤ j → j < i → Active s.g j) ∧
      (s.g.daemon = false → e.daemonFree = true)
  | .leave e ip => Acts e ip → s.joined ip = 1 → ∀ i, Holds s.g ip i →
      (∀ j, j < i → ¬ Active s.g j) → ∀ j, i < j → ¬ Active s.g j

/-! ## The slots -/

variable {g : Groups} {s : Members} {e : CallEnv} {ip ip' : Dword} {i j : ℤ} {mc : MultiCast}

@[simp] theorem startReports_mcastList : (startReports e g).mcastList = g.mcastList := by
  unfold startReports
  split_ifs <;> rfl

@[simp] theorem startReports_linkLeft : (startReports e g).linkLeft = g.linkLeft := by
  unfold startReports
  split_ifs <;> rfl

@[simp] theorem put_daemon : (g.put i mc).daemon = g.daemon := rfl

theorem active_put_self (hi : 0 ≤ i) (hn : i < ipmultiSize) :
    Active (g.put i mc) i ↔ mc.active = true := by
  simp [Active, Groups.put, hi, hn]

theorem active_put_ne (h : j ≠ i) : Active (g.put i mc) j ↔ Active g j := by
  simp [Active, Groups.put, Function.update_of_ne h]

theorem holds_put_self (hi : 0 ≤ i) (hn : i < ipmultiSize) :
    Holds (g.put i mc) ip i ↔ mc.active = true ∧ mc.ip = ip := by
  rw [Holds, active_put_self hi hn]
  simp [Groups.put]

theorem holds_put_ne (h : j ≠ i) : Holds (g.put i mc) ip j ↔ Holds g ip j := by
  rw [Holds, active_put_ne h]
  simp [Holds, Groups.put, Function.update_of_ne h]

theorem isGroup_iff (hi : 0 ≤ i) (hn : i < ipmultiSize) :
    (g.mcastList i).isGroup ip = true ↔ Holds g ip i := by
  simp [MultiCast.isGroup, Holds, Active, hi, hn]

/-- Where `join_mcast_group` ends. -/
theorem joinSlot_some (h : joinSlot g ip = some i) : 0 ≤ i ∧ i < ipmultiSize ∧
    (Holds g ip i ∨ ¬ Active g i) ∧ ∀ j, 0 ≤ j → j < i → Active g j ∧ ¬ Holds g ip j := by
  obtain ⟨h₁, h₂, h₃, h₄⟩ := Slots.find_eq_some h
  rw [zero_add] at h₂
  refine ⟨h₁, h₂, ?_, fun j hj hji => ?_⟩
  · rcases of_decide_eq_true h₃ with h | h
    · exact .inl ((isGroup_iff h₁ h₂).mp h)
    · exact .inr fun ha => by rw [ha.2.2] at h; cases h
  · obtain ⟨hg, ha⟩ := not_or.mp (of_decide_eq_false (h₄ j hj hji))
    have hn : j < ipmultiSize := by omega
    exact ⟨⟨hj, hn, eq_true_of_ne_false ha⟩, fun h => hg ((isGroup_iff hj hn).mpr h)⟩

theorem leaveSlot_some (h : leaveSlot g ip = some i) : Holds g ip i := by
  obtain ⟨h₁, h₂, h₃, -⟩ := Slots.find_eq_some h
  exact (isGroup_iff h₁ (by omega)).mp h₃

theorem leaveSlot_none (h : leaveSlot g ip = none) (i : ℤ) : ¬ Holds g ip i := fun hi => by
  have hno := Slots.find_eq_none.mp h i hi.1.1 (by have := hi.1.2.1; omega)
  have hyes := (isGroup_iff hi.1.1 hi.1.2.1).mpr hi
  rw [hno] at hyes
  cases hyes

/-- The count up to an active slot is 1 exactly if it is the first. -/
theorem numTotal_le_one (h : Active g i) : numTotal g i ≤ 1 ↔ ∀ j, j < i → ¬ Active g j := by
  obtain ⟨k, rfl⟩ := Int.eq_ofNat_of_zero_le h.1
  have hsplit : numTotal g k = ((List.range k).filter fun j : ℕ => (g.mcastList j).active).length + 1 := by
    simp [numTotal, List.range_succ, List.filter_append, h.2.2]
  have hk : (k : ℤ) < ipmultiSize := h.2.1
  have hone (n : ℕ) : n + 1 ≤ 1 ↔ n = 0 := by omega
  rw [hsplit, hone, List.length_eq_zero_iff, List.filter_eq_nil_iff]
  constructor
  · intro hno j hj ha
    obtain ⟨n, rfl⟩ := Int.eq_ofNat_of_zero_le ha.1
    exact hno n (List.mem_range.mpr (by omega)) ha.2.2
  · intro hno n hn ha
    rw [List.mem_range] at hn
    exact hno n (by omega) ⟨by omega, by omega, ha⟩

/-! ## The counts -/

/-- The law, and `daemon_on` tells whether the daemon is registered. -/
structure Inv (s : Members) : Prop where
  counted : Counted s
  daemonOn : s.g.daemonOn = s.g.daemon

theorem holds_recount (hi : Active g i) (n : ℕ) :
    Holds (g.put i { g.mcastList i with processes := n }) ip j ↔ Holds g ip j := by
  by_cases hj : j = i
  · subst hj
    rw [holds_put_self hi.1 hi.2.1]
    exact and_congr_left' ⟨fun _ => hi, fun h => h.2.2⟩
  · exact holds_put_ne hj

theorem active_recount (hi : Active g i) (n : ℕ) :
    Active (g.put i { g.mcastList i with processes := n }) j ↔ Active g j := by
  by_cases hj : j = i
  · subst hj
    rw [active_put_self hi.1 hi.2.1]
    exact ⟨fun _ => hi, fun h => h.2.2⟩
  · exact active_put_ne hj

/-- The count of a group changes, in its entry and in the ghost. -/
theorem counted_recount (h : Counted s) (hi : Holds s.g ip i) {n : ℕ} (hn : 0 < n) :
    Counted ⟨s.g.put i { s.g.mcastList i with processes := n }, Function.update s.joined ip n⟩ := by
  constructor
  · intro ip' hip
    by_cases heq : ip' = ip
    · exact ⟨i, (holds_recount hi.1 n).mpr (heq ▸ hi)⟩
    · obtain ⟨j, hj⟩ := h.entry ip' (by simpa [Function.update_of_ne heq] using hip)
      exact ⟨j, (holds_recount hi.1 n).mpr hj⟩
  · intro ip' j k hj hk
    exact h.once ip' j k ((holds_recount hi.1 n).mp hj) ((holds_recount hi.1 n).mp hk)
  · intro ip' j hj
    replace hj := (holds_recount hi.1 n).mp hj
    by_cases hji : j = i
    · subst hji
      have heq : ip' = ip := hj.2.symm.trans hi.2
      simp [Groups.put, heq]
    · have hne : ip' ≠ ip := fun heq => hji (h.once ip j i (heq ▸ hj) hi)
      simpa [Groups.put, Function.update_of_ne hji, Function.update_of_ne hne] using h.processes ip' j hj
  · intro ip' j hz hj
    by_cases heq : ip' = ip
    · subst heq
      simp at hz
      omega
    · exact h.absent ip' j (by simpa [Function.update_of_ne heq] using hz) ((holds_recount hi.1 n).mp hj)
  · refine h.daemon.trans (exists_congr fun j => (active_recount hi.1 n).symm)

/-- A group gets a free slot: the law goes on exactly if it had none. -/
theorem counted_new (h : Counted s) (hi : 0 ≤ i) (hn : i < ipmultiSize) (hfree : ¬ Active s.g i)
    (hg : g.mcastList = s.g.mcastList) (hmc : mc.active = true ∧ mc.ip = ip ∧ mc.processes = 1) :
    Counted ⟨g.put i mc, Function.update s.joined ip (s.joined ip + 1)⟩ ↔
      s.joined ip = 0 ∧ g.daemon = true := by
  have hact (j : ℤ) : Active g j ↔ Active s.g j := by rw [Active, Active, hg]
  have hhold (ip' : Dword) (j : ℤ) : Holds g ip' j ↔ Holds s.g ip' j := by rw [Holds, Holds, hact, hg]
  have hself : Holds (g.put i mc) ip i := (holds_put_self hi hn).mpr ⟨hmc.1, hmc.2.1⟩
  constructor
  · intro hc
    refine ⟨?_, hc.daemon.mpr ⟨i, hself.1⟩⟩
    by_contra hz
    obtain ⟨j, hj⟩ := h.entry ip (Nat.pos_of_ne_zero hz)
    have hji : j ≠ i := fun heq => hfree (heq ▸ hj.1)
    exact hji (hc.once ip j i ((holds_put_ne hji).mpr ((hhold ip j).mpr hj)) hself)
  · rintro ⟨hz, hd⟩
    have hold {ip' : Dword} {j : ℤ} (hj : Holds (g.put i mc) ip' j) :
        j = i ∧ ip' = ip ∨ j ≠ i ∧ ip' ≠ ip ∧ Holds s.g ip' j := by
      by_cases hji : j = i
      · subst hji
        exact .inl ⟨rfl, ((holds_put_self hi hn).mp hj).2.symm.trans hmc.2.1⟩
      · have hj' := (hhold ip' j).mp ((holds_put_ne hji).mp hj)
        exact .inr ⟨hji, fun heq => h.absent ip j hz (heq ▸ hj'), hj'⟩
    constructor
    · intro ip' hip
      by_cases heq : ip' = ip
      · exact ⟨i, heq ▸ hself⟩
      · obtain ⟨j, hj⟩ := h.entry ip' (by simpa [Function.update_of_ne heq] using hip)
        have hji : j ≠ i := fun heq => hfree (heq ▸ hj.1)
        exact ⟨j, (holds_put_ne hji).mpr ((hhold ip' j).mpr hj)⟩
    · intro ip' j k hj hk
      rcases hold hj with ⟨rfl, rfl⟩ | ⟨hji, hne, hj⟩ <;> rcases hold hk with ⟨rfl, heq⟩ | ⟨hki, hne', hk⟩
      · rfl
      · exact absurd rfl hne'
      · exact absurd heq hne
      · exact h.once ip' j k hj hk
    · intro ip' j hj
      rcases hold hj with ⟨rfl, rfl⟩ | ⟨hji, hne, hj⟩
      · simp [Groups.put, hmc.2.2, hz]
      · simpa [Groups.put, Function.update_of_ne hji, Function.update_of_ne hne, hg]
          using h.processes ip' j hj
    · intro ip' j hz' hj
      rcases hold hj with ⟨rfl, rfl⟩ | ⟨hji, hne, hj⟩
      · simp at hz'
      · exact h.absent ip' j (by simpa [Function.update_of_ne hne] using hz') hj
    · exact iff_of_true hd ⟨i, hself.1⟩

/-- A group loses its slot: the law goes on exactly if the daemon stays with another. -/
theorem counted_drop (h : Counted s) (hi : Holds s.g ip i) (mc : MultiCast)
    (hg : g.mcastList = s.g.mcastList) (hmc : mc.active = false) : Counted ⟨g.put i mc, Function.update s.joined ip 0⟩ ↔
      (g.daemon = true ↔ ∃ j, j ≠ i ∧ Active s.g j) := by
  have hact (j : ℤ) : Active g j ↔ Active s.g j := by rw [Active, Active, hg]
  have hhold (ip' : Dword) (j : ℤ) : Holds g ip' j ↔ Holds s.g ip' j := by rw [Holds, Holds, hact, hg]
  have hactive (j : ℤ) : Active (g.put i mc) j ↔ j ≠ i ∧ Active s.g j := by
    by_cases hji : j = i
    · subst hji
      rw [active_put_self hi.1.1 hi.1.2.1, hmc]
      simp
    · rw [active_put_ne hji, hact]
      simp [hji]
  have hold (ip' : Dword) (j : ℤ) : Holds (g.put i mc) ip' j ↔ j ≠ i ∧ Holds s.g ip' j := by
    by_cases hji : j = i
    · subst hji
      rw [holds_put_self hi.1.1 hi.1.2.1, hmc]
      simp
    · rw [holds_put_ne hji, hhold]
      simp [hji]
  constructor
  · intro hc
    exact hc.daemon.trans (exists_congr hactive)
  · intro hd
    constructor
    · intro ip' hip
      have hne : ip' ≠ ip := fun heq => by simp [heq] at hip
      obtain ⟨j, hj⟩ := h.entry ip' (by simpa [Function.update_of_ne hne] using hip)
      have hji : j ≠ i := fun heq => hne (hj.2.symm.trans (heq ▸ hi.2))
      exact ⟨j, (hold ip' j).mpr ⟨hji, hj⟩⟩
    · intro ip' j k hj hk
      exact h.once ip' j k ((hold ip' j).mp hj).2 ((hold ip' k).mp hk).2
    · intro ip' j hj
      obtain ⟨hji, hj⟩ := (hold ip' j).mp hj
      have hne : ip' ≠ ip := fun heq => hji (h.once ip j i (heq ▸ hj) hi)
      simpa [Groups.put, Function.update_of_ne hji, Function.update_of_ne hne, hg]
        using h.processes ip' j hj
    · intro ip' j hz hj
      obtain ⟨hji, hj⟩ := (hold ip' j).mp hj
      have hne : ip' ≠ ip := fun heq => hji (h.once ip j i (heq ▸ hj) hi)
      exact h.absent ip' j (by simpa [Function.update_of_ne hne] using hz) hj
    · exact hd.trans (exists_congr fun j => (hactive j).symm)

/-! ## The calls, step by step -/

theorem join_idle (ha : ¬ Acts e ip) : memberStep s (.join e ip) = s := by
  have hidle : joinMcastGroup e ip s.g = (s.g, false) :=
    if_pos (by by_contra h; exact ha (by simpa [Acts] using h))
  simp [memberStep, hidle]

theorem leave_idle (ha : ¬ Acts e ip) : memberStep s (.leave e ip) = s := by
  have hidle : leaveMcastGroup e ip s.g = (s.g, false) :=
    if_pos (by by_contra h; exact ha (by simpa [Acts] using h))
  simp [memberStep, hidle]

theorem join_held (ha : Acts e ip) (hslot : joinSlot g ip = some i) (hi : Holds g ip i) :
    joinMcastGroup e ip g = ((startReports e g).put i { g.mcastList i with
      processes := if (g.mcastList i).processes < 255 then (g.mcastList i).processes + 1
        else (g.mcastList i).processes }, true) := by
  have hgroup := (isGroup_iff hi.1.1 hi.1.2.1).mpr hi
  have hslot' : joinSlot (startReports e g) ip = some i := by simpa [joinSlot] using hslot
  unfold joinMcastGroup
  rw [if_neg (by simp [ha.1, ha.2])]
  simp only [hslot', startReports_mcastList]
  rw [if_pos hgroup]

theorem join_new (ha : Acts e ip) (hl : e.linkOk = true) (hslot : joinSlot g ip = some i)
    (hi : ¬ Active g i) : joinMcastGroup e ip g = ((startReports e g).put i (newGroup ip), true) := by
  obtain ⟨h₁, h₂, -⟩ := joinSlot_some hslot
  have hgroup : ¬ (g.mcastList i).isGroup ip = true := fun h => hi ((isGroup_iff h₁ h₂).mp h).1
  have hslot' : joinSlot (startReports e g) ip = some i := by simpa [joinSlot] using hslot
  unfold joinMcastGroup
  rw [if_neg (by simp [ha.1, ha.2])]
  simp only [hslot', startReports_mcastList]
  rw [if_neg hgroup, if_pos hl]

theorem leave_none (hslot : leaveSlot g ip = none) : leaveMcastGroup e ip g = (g, false) := by
  unfold leaveMcastGroup
  split_ifs
  · rfl
  · simp only [hslot]

theorem leave_one (ha : Acts e ip) (hslot : leaveSlot g ip = some i) (hp : 1 < (g.mcastList i).processes) :
    leaveMcastGroup e ip g =
      (g.put i { g.mcastList i with processes := (g.mcastList i).processes - 1 }, true) := by
  unfold leaveMcastGroup
  rw [if_neg (by simp [ha.1, ha.2])]
  simp only [hslot]
  rw [if_pos hp]

/-- The groups after the last leave, before the daemon is removed. -/
def Groups.drop (g : Groups) (i : ℤ) (ip : Dword) : Groups :=
  { g.put i { g.mcastList i with active := false } with linkLeft := g.linkLeft ++ [ip] }

theorem leave_last (ha : Acts e ip) (hslot : leaveSlot g ip = some i)
    (hp : ¬ 1 < (g.mcastList i).processes) : leaveMcastGroup e ip g =
      (if numTotal g i ≤ 1 then { g.drop i ip with daemonOn := false, daemon := false } else g.drop i ip,
        e.linkOk) := by
  unfold leaveMcastGroup
  rw [if_neg (by simp [ha.1, ha.2])]
  simp only [hslot]
  rw [if_neg hp]
  rfl

theorem inv_startReports (h : Inv s) (ha : ∃ i, Active s.g i) : startReports e s.g = s.g := by
  unfold startReports
  rw [if_pos (h.daemonOn.trans (h.counted.daemon.mpr ha))]

/-- **A join keeps the law exactly if it meets the condition.** -/
theorem join_iff (h : Inv s) (hserved : Served s (.join e ip)) :
    CountedStep s (.join e ip) ↔ CallOk s (.join e ip) := by
  by_cases ha : Acts e ip
  swap
  · refine iff_of_true ⟨?_, fun hl => ?_⟩ fun h' => absurd h' ha
    · rw [join_idle ha]
      exact h.counted
    · rw [join_idle ha] at hl
      exact absurd rfl hl
  obtain ⟨hl, hslot, hmax⟩ := hserved
  obtain ⟨i, hslot⟩ := Option.ne_none_iff_exists'.mp hslot
  obtain ⟨h₁, h₂, hi, hbefore⟩ := joinSlot_some hslot
  rcases hi with hi | hi
  · have hstep : memberStep s (.join e ip) = ⟨s.g.put i { s.g.mcastList i with
        processes := s.joined ip + 1 }, Function.update s.joined ip (s.joined ip + 1)⟩ := by
      have hp := h.counted.processes ip i hi
      simp only [memberStep, join_held ha hslot hi, inv_startReports h ⟨i, hi.1⟩, hp]
      rw [if_pos (by omega)]
      rfl
    refine iff_of_true ⟨?_, fun hlink => ?_⟩ fun _ => ⟨fun j hj => ?_, fun hd => ?_⟩
    · rw [hstep]
      exact counted_recount h.counted hi (by omega)
    · rw [hstep] at hlink
      exact absurd rfl hlink
    · rw [h.counted.once ip j i hj hi]
      exact fun k hk hki => (hbefore k hk hki).1
    · rw [h.counted.daemon.mpr ⟨i, hi.1⟩] at hd
      cases hd
  · have hstep : memberStep s (.join e ip) = ⟨(startReports e s.g).put i (newGroup ip),
        Function.update s.joined ip (s.joined ip + 1)⟩ := by
      simp only [memberStep, join_new ha hl hslot hi]
      rfl
    have hgroup : (newGroup ip).active = true ∧ (newGroup ip).ip = ip ∧ (newGroup ip).processes = 1 :=
      ⟨rfl, rfl, rfl⟩
    have hnew := counted_new h.counted h₁ h₂ hi (startReports_mcastList (e := e)) hgroup
    have hdaemon : (startReports e s.g).daemon = true ↔ (s.g.daemon = false → e.daemonFree = true) := by
      unfold startReports
      cases hd : s.g.daemon <;> simp [h.daemonOn, hd]
    have hlaw : CountedStep s (.join e ip) ↔ Counted (memberStep s (.join e ip)) := by
      refine ⟨fun hc => hc.counted, fun hc => ⟨hc, fun hlink => ?_⟩⟩
      rw [hstep] at hlink
      exact absurd startReports_linkLeft hlink
    rw [hlaw, hstep, hnew, hdaemon]
    refine ⟨fun ⟨hz, hd⟩ _ => ⟨fun j hj => absurd hj (h.counted.absent ip j hz), hd⟩, fun hok => ?_⟩
    obtain ⟨hfirst, hd⟩ := hok ha
    refine ⟨?_, hd⟩
    by_contra hz
    obtain ⟨j, hj⟩ := h.counted.entry ip (Nat.pos_of_ne_zero hz)
    rcases lt_trichotomy i j with hij | rfl | hij
    · exact hi (hfirst j hj i h₁ hij)
    · exact hi hj.1
    · exact (hbefore j hj.1.1 hij).2 hj

theorem join_inv (h : Inv s) (hserved : Served s (.join e ip)) (hok : CallOk s (.join e ip)) :
    Inv (memberStep s (.join e ip)) := by
  refine ⟨((join_iff h hserved).mpr hok).counted, ?_⟩
  by_cases ha : Acts e ip
  swap
  · rw [join_idle ha]
    exact h.daemonOn
  have hstart : (startReports e s.g).daemonOn = (startReports e s.g).daemon := by
    have hfree := (hok ha).2
    unfold startReports
    cases hd : s.g.daemon <;> simp [h.daemonOn, hd, hfree]
  obtain ⟨hl, hslot, -⟩ := hserved
  obtain ⟨i, hslot⟩ := Option.ne_none_iff_exists'.mp hslot
  rcases (joinSlot_some hslot).2.2.1 with hi | hi
  · simp only [memberStep, join_held ha hslot hi]
    exact hstart
  · simp only [memberStep, join_new ha hl hslot hi]
    exact hstart

/-- **A leave keeps the law exactly if it meets the condition.** -/
theorem leave_iff (h : Inv s) (hserved : Served s (.leave e ip)) :
    (CountedStep s (.leave e ip) ↔ CallOk s (.leave e ip)) ∧
      (memberStep s (.leave e ip)).g.daemonOn = (memberStep s (.leave e ip)).g.daemon := by
  have hkeep (hstep : memberStep s (.leave e ip) = s) (hok : CallOk s (.leave e ip)) :
      (CountedStep s (.leave e ip) ↔ CallOk s (.leave e ip)) ∧
        (memberStep s (.leave e ip)).g.daemonOn = (memberStep s (.leave e ip)).g.daemon := by
    refine ⟨iff_of_true ⟨?_, fun hl => ?_⟩ hok, ?_⟩
    · rw [hstep]
      exact h.counted
    · rw [hstep] at hl
      exact absurd rfl hl
    · rw [hstep]
      exact h.daemonOn
  by_cases ha : Acts e ip
  swap
  · exact hkeep (leave_idle ha) fun h' => absurd h' ha
  cases hslot : leaveSlot s.g ip with
  | none =>
    refine hkeep (by simp [memberStep, leave_none hslot]) fun _ _ i hi => ?_
    exact absurd hi (leaveSlot_none hslot i)
  | some i =>
    have hi := leaveSlot_some hslot
    have hp := h.counted.processes ip i hi
    have hpos : s.joined ip ≠ 0 := fun hz => h.counted.absent ip i hz hi
    by_cases hone : 1 < (s.g.mcastList i).processes
    · have hstep : memberStep s (.leave e ip) = ⟨s.g.put i { s.g.mcastList i with
          processes := s.joined ip - 1 }, Function.update s.joined ip (s.joined ip - 1)⟩ := by
        simp only [memberStep, leave_one ha hslot hone, hp]
        rfl
      rw [hp] at hone
      refine ⟨iff_of_true ⟨?_, fun hlink => ?_⟩ fun _ hj => by omega, ?_⟩
      · rw [hstep]
        exact counted_recount h.counted hi (by omega)
      · rw [hstep] at hlink
        exact absurd rfl hlink
      · rw [hstep]
        exact h.daemonOn
    · have hj : s.joined ip = 1 := by omega
      have hstep : memberStep s (.leave e ip) = ⟨if numTotal s.g i ≤ 1 then
          { s.g.drop i ip with daemonOn := false, daemon := false } else s.g.drop i ip,
          Function.update s.joined ip 0⟩ := by
        have hl : e.linkOk = true := hserved
        simp only [memberStep, leave_last ha hslot hone, hj]
        rw [if_pos hl]
      have hlaw : CountedStep s (.leave e ip) ↔ Counted (memberStep s (.leave e ip)) := by
        refine ⟨fun hc => hc.counted, fun hc => ⟨hc, fun _ => ⟨e, ip, rfl, hj, ?_⟩⟩⟩
        rw [hstep]
        split_ifs <;> rfl
      rw [hlaw, hstep]
      by_cases hfirst : numTotal s.g i ≤ 1
      · rw [if_pos hfirst]
        have hdrop := counted_drop (g := { s.g with
          daemonOn := false, daemon := false, linkLeft := s.g.linkLeft ++ [ip] })
          h.counted hi { s.g.mcastList i with active := false } rfl rfl
        refine ⟨hdrop.trans ?_, rfl⟩
        have hbefore := (numTotal_le_one hi.1).mp hfirst
        constructor
        · intro hd _ _ k hk _ j hkj hact
          rw [h.counted.once ip k i hk hi] at hkj
          exact absurd (hd.mpr ⟨j, by omega, hact⟩) Bool.false_ne_true
        · intro hok
          refine iff_of_false Bool.false_ne_true ?_
          rintro ⟨j, hji, hact⟩
          rcases lt_or_gt_of_ne hji with hlt | hgt
          · exact hbefore j hlt hact
          · exact hok ha hj i hi hbefore j hgt hact
      · rw [if_neg hfirst]
        have hdrop := counted_drop (g := { s.g with linkLeft := s.g.linkLeft ++ [ip] })
          h.counted hi { s.g.mcastList i with active := false } rfl rfl
        refine ⟨hdrop.trans ?_, h.daemonOn⟩
        have hother : ∃ j, j < i ∧ Active s.g j := by
          by_contra hno
          exact hfirst ((numTotal_le_one hi.1).mpr fun j hlt hact => hno ⟨j, hlt, hact⟩)
        obtain ⟨j, hlt, hact⟩ := hother
        refine iff_of_true (iff_of_true (h.counted.daemon.mpr ⟨i, hi.1⟩) ⟨j, by omega, hact⟩) ?_
        intro _ _ k hk hbefore
        rw [h.counted.once ip k i hk hi] at hbefore
        exact absurd hact (hbefore j hlt)

/-! ## How many groups are active -/

theorem numTotal_pos : 0 < numTotal g (ipmultiSize - 1) ↔ ∃ i, Active g i := by
  rw [numTotal, List.length_pos_iff_exists_mem]
  constructor
  · rintro ⟨n, hn⟩
    obtain ⟨hlt, ha⟩ := List.mem_filter.mp hn
    have hlt : n < 20 := by simpa [ipmultiSize] using hlt
    exact ⟨n, by omega, by simp only [ipmultiSize]; omega, ha⟩
  · rintro ⟨i, h₀, hi, ha⟩
    obtain ⟨n, rfl⟩ := Int.eq_ofNat_of_zero_le h₀
    refine ⟨n, List.mem_filter.mpr ⟨?_, ha⟩⟩
    simp only [ipmultiSize] at hi ⊢
    simpa using (by omega : n < 20)

/-- The count is that of the active groups. -/
theorem numTotal_congr {g' : Groups} (h : ∀ i, Active g' i ↔ Active g i) :
    numTotal g' (ipmultiSize - 1) = numTotal g (ipmultiSize - 1) := by
  rw [numTotal, numTotal]
  congr 1
  refine List.filter_congr fun n hn => ?_
  have hlt : n < 20 := by simpa [ipmultiSize] using hn
  have hi : (0 : ℤ) ≤ n ∧ (n : ℤ) < ipmultiSize := by simp only [ipmultiSize]; omega
  have := h n
  simp only [Active, hi.1, hi.2, true_and] at this
  exact Bool.eq_iff_iff.mpr this

/-- If no other group is active, there is at most one. -/
theorem numTotal_of_only (h : ∀ j, Active g j → j = i) : numTotal g (ipmultiSize - 1) ≤ 1 := by
  rw [numTotal, ← List.toFinset_card_of_nodup (List.nodup_range.filter _), Finset.card_le_one]
  have hone : ∀ n ∈ ((List.range (((ipmultiSize : ℤ) - 1).toNat + 1)).filter
      fun j : ℕ => (g.mcastList j).active).toFinset, (n : ℤ) = i := by
    intro n hn
    obtain ⟨hlt, ha⟩ := List.mem_filter.mp (List.mem_toFinset.mp hn)
    have hlt : n < 20 := by simpa [ipmultiSize] using hlt
    exact h n ⟨by omega, by simp only [ipmultiSize]; omega, ha⟩
  intro m hm n hn
  exact Int.ofNat_inj.mp ((hone m hm).trans (hone n hn).symm)

theorem active_startReports : Active (startReports e g) i ↔ Active g i := by
  simp only [Active, startReports_mcastList]

/-- An entry changes, but for whether it is active. -/
theorem active_put_same (h : mc.active = (g.mcastList i).active) : Active (g.put i mc) j ↔ Active g j := by
  by_cases hj : j = i
  · subst hj
    simp [Active, Groups.put, h]
  · exact active_put_ne hj

/-- A join that the link layer takes part in leaves a group active; any other leaves those that are. -/
theorem active_joinMcastGroup (e : CallEnv) (ip : Dword) (g : Groups) :
    (linkJoins e ip g = true → e.linkOk = true → ∃ i, Active (joinMcastGroup e ip g).1 i) ∧
    (¬ (linkJoins e ip g = true ∧ e.linkOk = true) →
      ∀ i, Active (joinMcastGroup e ip g).1 i ↔ Active g i) := by
  by_cases ha : Acts e ip
  swap
  · have hidle : joinMcastGroup e ip g = (g, false) :=
      if_pos (by by_contra h; exact ha (by simpa [Acts] using h))
    rw [hidle]
    refine ⟨fun hlink _ => absurd ?_ ha, fun _ _ => Iff.rfl⟩
    simp only [linkJoins, decide_eq_true_eq] at hlink
    exact ⟨hlink.1, hlink.2.1⟩
  have hslot' : joinSlot (startReports e g) ip = joinSlot g ip := by simp [joinSlot]
  have hlink : linkJoins e ip g = (joinSlot g ip).any fun i => !(g.mcastList i).isGroup ip := by
    simp [linkJoins, ha.1, ha.2]
  rw [hlink]
  unfold joinMcastGroup
  rw [if_neg (by simp [ha.1, ha.2])]
  simp only [hslot']
  cases hslot : joinSlot g ip with
  | none => exact ⟨fun h => absurd h (by simp), fun _ i => active_startReports⟩
  | some i =>
    obtain ⟨h₁, h₂, -⟩ := joinSlot_some hslot
    have hmc : ((startReports e g).mcastList i) = g.mcastList i := by rw [startReports_mcastList]
    simp only [hmc, Option.any_some, Bool.not_eq_true']
    by_cases hgroup : (g.mcastList i).isGroup ip = true
    · rw [if_pos hgroup]
      refine ⟨fun h => absurd hgroup (by simp [h]), fun _ j => Iff.trans ?_ (active_startReports (e := e))⟩
      exact active_put_same (congrArg MultiCast.active hmc).symm
    · rw [if_neg hgroup]
      cases hl : e.linkOk
      · refine ⟨fun _ h => absurd h (by simp), fun _ j => Iff.trans ?_ (active_startReports (e := e))⟩
        exact active_put_same (congrArg MultiCast.active hmc).symm
      · refine ⟨fun _ _ => ⟨i, (active_put_self h₁ h₂).mpr rfl⟩, fun h => ?_⟩
        exact absurd ⟨by simpa using hgroup, rfl⟩ h

/-- A leave takes away the group in the slot, and tells the link layer, or it leaves those that are. -/
theorem active_leaveMcastGroup (e : CallEnv) (ip : Dword) (g : Groups) :
    ((leaveMcastGroup e ip g).1.linkLeft = g.linkLeft ∧
      ∀ i, Active (leaveMcastGroup e ip g).1 i ↔ Active g i) ∨
    Acts e ip ∧ ∃ i, leaveSlot g ip = some i ∧ (g.mcastList i).processes ≤ 1 ∧ Active g i ∧
      ∀ j, Active (leaveMcastGroup e ip g).1 j ↔ j ≠ i ∧ Active g j := by
  by_cases ha : Acts e ip
  swap
  · have hidle : leaveMcastGroup e ip g = (g, false) :=
      if_pos (by by_contra h; exact ha (by simpa [Acts] using h))
    rw [hidle]
    exact .inl ⟨rfl, fun _ => Iff.rfl⟩
  cases hslot : leaveSlot g ip with
  | none =>
    rw [leave_none hslot]
    exact .inl ⟨rfl, fun _ => Iff.rfl⟩
  | some i =>
    by_cases hp : 1 < (g.mcastList i).processes
    · rw [leave_one ha hslot hp]
      exact .inl ⟨rfl, fun j => active_put_same rfl⟩
    · have hi := leaveSlot_some hslot
      refine .inr ⟨ha, i, rfl, by omega, hi.1, fun j => ?_⟩
      have hdrop : Active (leaveMcastGroup e ip g).1 j ↔
          Active (g.put i { g.mcastList i with active := false }) j := by
        rw [leave_last ha hslot hp]
        split_ifs <;> rfl
      rw [hdrop]
      by_cases hj : j = i
      · subst hj
        rw [active_put_self hi.1.1 hi.1.2.1]
        simp
      · rw [active_put_ne hj]
        simp [hj]

/-- **A call keeps the law exactly if it meets the condition.** -/
theorem call_iff (h : Inv s) (op : Op) (hserved : Served s op) : CountedStep s op ↔ CallOk s op := by
  cases op with
  | join e ip => exact join_iff h hserved
  | leave e ip => exact (leave_iff h hserved).1

theorem call_inv (h : Inv s) (op : Op) (hserved : Served s op) (hok : CallOk s op) :
    Inv (memberStep s op) := by
  cases op with
  | join e ip => exact join_inv h hserved hok
  | leave e ip => exact ⟨((leave_iff h hserved).1.mpr hok).counted, (leave_iff h hserved).2⟩

theorem inv_init : Inv {} := by
  refine ⟨⟨fun ip h => ?_, fun ip i j h => ?_, fun ip i h => ?_, fun ip i _ h => ?_, ?_⟩, rfl⟩
  · exact absurd h (lt_irrefl 0)
  · exact absurd h.1.2.2 Bool.false_ne_true
  · exact absurd h.1.2.2 Bool.false_ne_true
  · exact absurd h.1.2.2 Bool.false_ne_true
  · exact iff_of_false Bool.false_ne_true fun ⟨i, h⟩ => absurd h.2.2 Bool.false_ne_true

/-- **Membership is counted** along a run exactly if all its calls meet the condition. -/
theorem members_counted_iff (ops : List Op) (hserved : Always memberStep Served {} ops) :
    Always memberStep CountedStep {} ops ↔ Always memberStep CallOk {} ops :=
  always_iff_under (fun _ op h hs hq => call_inv h op hs hq) (fun _ op h hs => call_iff h op hs) ops
    inv_init hserved

/-- 224.1.1.1 and 224.1.1.2. -/
def groupA : Dword := 0xe0010101
def groupB : Dword := 0xe0010102

/-- Two groups are joined, the first is left, and the second is joined again. -/
def rejoinOps : List Op := [.join {} groupA, .join {} groupB, .leave {} groupA, .join {} groupB]

/-- The second join of a group takes the free slot before it. -/
theorem member_joined_twice :
    Always memberStep Served {} rejoinOps ∧ ¬ Always memberStep CountedStep {} rejoinOps := by
  refine ⟨by decide, ?_⟩
  rintro ⟨-, -, -, h, -⟩
  have hslots := h.counted.once groupB 0 1 (by decide) (by decide)
  exact absurd hslots (by decide)

/-- Two groups are joined and left, the last one first. -/
theorem members_counted_lifo : Always memberStep CountedStep {}
      [.join {} groupA, .join {} groupB, .leave {} groupB, .leave {} groupA] ↔
    Always memberStep CallOk {}
      [.join {} groupA, .join {} groupB, .leave {} groupB, .leave {} groupA] :=
  members_counted_iff _ (by decide)

end Watt32.Igmp
