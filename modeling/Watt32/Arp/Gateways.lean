import Watt32.Lib.Run
import Watt32.Lib.Qsort
import Watt32.Arp.Cache

/-!
# The gateway table

`_arp_add_gateway`, `_arp_kill_gateways` and the choice of a gateway in `route_start_lookup`.

* `arpAddGateway`: parse, check the mask, fill an entry, sort.
* `selectGateway`: the first usable entry.
* `LongestPrefix`: what the choice is for.
* **`longest_prefix_iff`**: when the first usable entry has the longest mask.
-/

namespace Watt32.Arp

open Machine

/-! ## Numbers in a configuration string -/

/-- `isspace`. -/
def isSpace (c : Char) : Bool := c.toNat = 32 ∨ 9 ≤ c.toNat ∧ c.toNat ≤ 13

/-- The value of the leading digits behind `n`. -/
def digits (n : ℤ) : List Char → ℤ
  | [] => n
  | c :: s => if c.isDigit then digits (10 * n + (c.toNat - 48)) s else n

/-- `atoi`. -/
def atoi (s : List Char) : ℤ :=
  match s.dropWhile isSpace with
  | [] => 0
  | c :: s => if c = '-' then -digits 0 s else if c = '+' then digits 0 s else digits 0 (c :: s)

/-- What follows the first `c`; `strchr` and a step. -/
def behind (c : Char) (s : List Char) : Option (List Char) :=
  match s.dropWhile (· ≠ c) with
  | [] => none
  | _ :: s => some s

/-- The loop of `aton`; `i` numbers are to follow. -/
def atonLoop : ℕ → Dword → List Char → Dword
  | i, ip, s =>
    let ip := ip ||| (BitVec.ofInt 32 (atoi s) &&& 0xff) <<< (8 * i)
    match i with
    | 0 => ip
    | i + 1 =>
      match behind '.' s with
      | none => 0
      | some s => atonLoop i ip s

/-- `aton`. -/
def aton (s : List Char) : Dword :=
  atonLoop 3 0 (if s.head? = some '[' then s.tail else s)

/-! ## Masks -/

/-- `bit_set`. -/
def bitSet (m : Dword) : Dword :=
  let m := (m &&& 0x55555555) + ((m &&& 0xaaaaaaaa) >>> 1)
  let m := (m &&& 0x33333333) + ((m &&& 0xcccccccc) >>> 2)
  let m := (m &&& 0x0f0f0f0f) + ((m &&& 0xf0f0f0f0) >>> 4)
  let m := (m &&& 0x00ff00ff) + ((m &&& 0xff00ff00) >>> 8)
  (m &&& 0x0000ffff) + ((m &&& 0xffff0000) >>> 16)

/-- `MLEN2MASK`. -/
def mlen2mask (mlen : Dword) : Dword :=
  if mlen ≠ 0 then (0xffffffff : Dword) <<< (32 - mlen) else 0

/-- `check_mask`. -/
def checkMask (mask : Dword) : Bool := mlen2mask (bitSet mask) = mask

/-- The mask of a subnet that comes without one. -/
def classMask (subnet : Dword) : Dword :=
  if subnet >>> 30 = 0 ∨ subnet >>> 30 = 1 then 0xff000000
  else if subnet >>> 30 = 2 then 0xfffffe00
  else 0xffffff00

/-! ## The table -/

/-- `gate_entry`. -/
structure GateEntry where
  gateIp : Dword
  subnet : Dword
  mask : Dword
  isDead : Bool := false
deriving DecidableEq

/-- `GATE_TOP_OF_CACHE`. -/
def gateTopOfCache : ℕ := 8

/-- `compare`. -/
def compare (a b : GateEntry) : ℤ := (a.mask - b.mask).toInt

/-- The entry that the arguments of `_arp_add_gateway` ask for. -/
def gatewayArgs (config : Option (List Char)) (ip : Dword) : Option GateEntry :=
  match config with
  | none => if ip = 0 then none else some { gateIp := ip, subnet := 0, mask := 0 }
  | some s =>
    if aton s = 0 then none
    else
      match behind ',' s with
      | none => some { gateIp := aton s, subnet := 0, mask := 0 }
      | some subnetp =>
        match behind ',' subnetp with
        | none => some { gateIp := aton s, subnet := aton subnetp, mask := classMask (aton subnetp) }
        | some maskp => some { gateIp := aton s, subnet := aton subnetp, mask := aton maskp }

section Table

variable (qsort : (GateEntry → GateEntry → ℤ) → List GateEntry → List GateEntry)

/-- `_arp_add_gateway` with its arguments parsed: an entry of the same address is overwritten. -/
def addGateway (gates : List GateEntry) (gw : GateEntry) : List GateEntry × Bool :=
  if checkMask gw.mask = false then (gates, false)
  else if gates.any (·.gateIp = gw.gateIp) then
    (qsort compare (gates.set (gates.findIdx (·.gateIp = gw.gateIp)) gw), true)
  else if gates.length = gateTopOfCache - 1 then (gates, false)
  else (qsort compare (gates ++ [gw]), true)

/-- `_arp_add_gateway`. -/
def arpAddGateway (gates : List GateEntry) (config : Option (List Char)) (ip : Dword) :
    List GateEntry × Bool :=
  match gatewayArgs config ip with
  | none => (gates, false)
  | some gw => addGateway qsort gates gw

/-- What happens to the table; `dead` is `check_dead_gw` for a gateway that does not answer. -/
inductive GateOp
  | add (config : Option (List Char)) (ip : Dword)
  | kill
  | dead (ip : Dword)

/-- Mark the gateway `ip`. -/
def markDead (ip : Dword) (gw : GateEntry) : GateEntry :=
  if gw.gateIp = ip then { gw with isDead := true } else gw

/-- One step of the table. -/
def stepGates (gates : List GateEntry) : GateOp → List GateEntry
  | .add config ip => (arpAddGateway qsort gates config ip).1
  | .kill => []
  | .dead ip => gates.map (markDead ip)

end Table

/-- The tests of `route_start_lookup` on a gateway. -/
def usable (e : Env) (ip : Dword) (gw : GateEntry) : Bool :=
  isOnLan e gw.gateIp ∧ gw.mask &&& ip = gw.subnet ∧ gw.isDead = false

/-- The scan of `route_start_lookup`. -/
def selectGateway (e : Env) (gates : List GateEntry) (ip : Dword) : Option GateEntry :=
  gates.find? (usable e ip)

/-- The choice among the usable gateways is one with the longest mask; none is chosen if none is
usable. -/
def LongestPrefix (e : Env) (gates : List GateEntry) (ip : Dword) : Prop :=
  match selectGateway e gates ip with
  | none => ∀ gw ∈ gates, usable e ip gw = false
  | some gw => gw ∈ gates ∧ usable e ip gw = true ∧
      ∀ gw' ∈ gates, usable e ip gw' = true → gw'.mask ≤ gw.mask

/-- Usable gateways with different masks are a default one and others, and no mask of the table is
`128.0.0.0`. -/
def OneLength (e : Env) (gates : List GateEntry) (ip : Dword) : Prop :=
  ∀ a ∈ gates, ∀ b ∈ gates, usable e ip a = true → usable e ip b = true → a.mask ≠ b.mask →
    (a.mask = 0 ∨ b.mask = 0) ∧ ∀ gw ∈ gates, gw.mask ≠ 0x80000000

/-! ## The order of the table -/

section Order

variable {qsort qsort' : (GateEntry → GateEntry → ℤ) → List GateEntry → List GateEntry}
  {gates gates' : List GateEntry} {gw : GateEntry}

@[simp] theorem markDead_gateIp (ip : Dword) (gw : GateEntry) :
    (markDead ip gw).gateIp = gw.gateIp := by
  unfold markDead
  split_ifs <;> rfl

@[simp] theorem markDead_mask (ip : Dword) (gw : GateEntry) :
    (markDead ip gw).mask = gw.mask := by
  unfold markDead
  split_ifs <;> rfl

/-- A step sorts a table, empties it, marks its gateways or leaves it. -/
theorem stepGates_cases
    (qsort : (GateEntry → GateEntry → ℤ) → List GateEntry → List GateEntry)
    (gates : List GateEntry) (op : GateOp) :
    stepGates qsort gates op = gates ∨ stepGates qsort gates op = [] ∨
    (∃ ip, stepGates qsort gates op = gates.map (markDead ip)) ∨
    ∃ gw l, checkMask gw.mask = true ∧ stepGates qsort gates op = qsort compare l ∧
      ∀ gw' ∈ l, gw' ∈ gates ∨ gw' = gw := by
  cases op with
  | kill => exact .inr (.inl rfl)
  | dead ip => exact .inr (.inr (.inl ⟨ip, rfl⟩))
  | add config ip =>
    unfold stepGates arpAddGateway
    dsimp only
    cases gatewayArgs config ip with
    | none => exact .inl rfl
    | some gw =>
      dsimp only [addGateway]
      split_ifs with hmask hany hfull
      · exact .inl rfl
      · refine .inr (.inr (.inr ⟨gw, _, by simpa using hmask, rfl, fun gw' h => ?_⟩))
        exact List.mem_or_eq_of_mem_set h
      · exact .inl rfl
      · refine .inr (.inr (.inr ⟨gw, _, by simpa using hmask, rfl, fun gw' h => ?_⟩))
        simpa using h

/-- What holds of sorted tables and does not depend on the marks holds of the table. -/
theorem run_gates {P : List GateEntry → Prop} (hnil : P []) (hsort : ∀ l, P (qsort compare l))
    (hdead : ∀ l ip, P l → P (l.map (markDead ip))) (ops : List GateOp) :
    P (run (stepGates qsort) [] ops) := by
  induction ops using List.reverseRecOn with
  | nil => exact hnil
  | append_singleton ops op ih =>
    rw [run_append]
    obtain heq | heq | ⟨ip, heq⟩ | ⟨gw, l, -, heq, -⟩ :=
      stepGates_cases qsort (run (stepGates qsort) [] ops) op
    all_goals rw [run_cons, run_nil, heq]
    · exact ih
    · exact hnil
    · exact hdead _ ip ih
    · exact hsort l

/-- All masks of the table have been checked. -/
theorem run_checkMask (hperm : ∀ l, (qsort compare l).Perm l) (ops : List GateOp) :
    ∀ gw ∈ run (stepGates qsort) [] ops, checkMask gw.mask = true := by
  induction ops using List.reverseRecOn with
  | nil => simp
  | append_singleton ops op ih =>
    rw [run_append]
    obtain heq | heq | ⟨ip, heq⟩ | ⟨gw, l, hmask, heq, hmem⟩ :=
      stepGates_cases qsort (run (stepGates qsort) [] ops) op
    all_goals rw [run_cons, run_nil, heq]
    · exact ih
    · simp
    · simpa using ih
    · intro gw' h
      rcases hmem gw' ((hperm l).mem_iff.mp h) with h | rfl
      · exact ih gw' h
      · exact hmask

/-- The entry of an address is overwritten wherever it is. -/
theorem set_findIdx (hnd : (gates.map GateEntry.gateIp).Nodup)
    (h : gates.any (·.gateIp = gw.gateIp) = true) :
    gates.set (gates.findIdx (·.gateIp = gw.gateIp)) gw =
      gates.map fun gw' => if gw'.gateIp = gw.gateIp then gw else gw' := by
  induction gates with
  | nil => cases h
  | cons g gates ih =>
    rw [List.map_cons, List.nodup_cons] at hnd
    rw [List.findIdx_cons, List.map_cons]
    by_cases hg : g.gateIp = gw.gateIp
    · rw [if_pos hg, decide_eq_true hg]
      refine congrArg (gw :: ·) ((List.map_congr_left fun g' hg' => ?_).trans gates.map_id).symm
      exact if_neg fun heq => hnd.1 (List.mem_map.mpr ⟨g', hg', heq.trans hg.symm⟩)
    · rw [if_neg hg, decide_eq_false hg]
      refine congrArg (g :: ·) (ih hnd.2 ?_)
      simpa [hg] using h

/-- The entries do not depend on the sort. -/
theorem stepGates_perm (hq : ∀ l, (qsort compare l).Perm l) (hq' : ∀ l, (qsort' compare l).Perm l)
    (h : gates.Perm gates') (hnd : (gates.map GateEntry.gateIp).Nodup) (op : GateOp) :
    (stepGates qsort gates op).Perm (stepGates qsort' gates' op) ∧
      ((stepGates qsort gates op).map GateEntry.gateIp).Nodup := by
  cases op with
  | kill => exact ⟨.refl _, List.nodup_nil⟩
  | dead ip =>
    refine ⟨h.map _, ?_⟩
    rwa [stepGates, List.map_map, show GateEntry.gateIp ∘ markDead ip = GateEntry.gateIp from
      funext (markDead_gateIp ip)]
  | add config ip =>
    unfold stepGates arpAddGateway
    dsimp only
    cases gatewayArgs config ip with
    | none => exact ⟨h, hnd⟩
    | some gw =>
      have hnd' : (gates'.map GateEntry.gateIp).Nodup := (h.map _).nodup_iff.mp hnd
      have hany : gates'.any (·.gateIp = gw.gateIp) = gates.any (·.gateIp = gw.gateIp) := by
        rw [Bool.eq_iff_iff, List.any_eq_true, List.any_eq_true]
        exact exists_congr fun g => and_congr_left' h.mem_iff.symm
      dsimp only [addGateway]
      rw [hany, ← h.length_eq]
      split_ifs with hmask hin hfull
      · exact ⟨h, hnd⟩
      · rw [set_findIdx hnd hin, set_findIdx hnd' (hany.trans hin)]
        refine ⟨(hq _).trans ((h.map _).trans (hq' _).symm), ?_⟩
        rw [((hq _).map _).nodup_iff, List.map_map]
        refine (List.map_congr_left fun g _ => ?_) ▸ hnd
        dsimp only [Function.comp_apply]
        split_ifs with hg
        · exact hg
        · rfl
      · exact ⟨h, hnd⟩
      · refine ⟨(hq _).trans ((h.append_right _).trans (hq' _).symm), ?_⟩
        rw [((hq _).map _).nodup_iff, List.map_append, List.nodup_append]
        refine ⟨hnd, List.nodup_singleton _, ?_⟩
        intro ip hip ip' hip' heq
        obtain ⟨g, hg, rfl⟩ := List.mem_map.mp hip
        rw [List.map_singleton, List.mem_singleton] at hip'
        exact hin (List.any_eq_true.mpr ⟨g, hg, decide_eq_true (heq.trans hip')⟩)

theorem run_perm_nodup (hq : ∀ l, (qsort compare l).Perm l)
    (hq' : ∀ l, (qsort' compare l).Perm l) (ops : List GateOp) :
    (run (stepGates qsort) [] ops).Perm (run (stepGates qsort') [] ops) ∧
      ((run (stepGates qsort) [] ops).map GateEntry.gateIp).Nodup := by
  induction ops using List.reverseRecOn with
  | nil => exact ⟨.refl _, List.nodup_nil⟩
  | append_singleton ops op ih =>
    rw [run_append, run_append]
    exact stepGates_perm hq hq' ih.1 ih.2 op

theorem run_perm (hq : ∀ l, (qsort compare l).Perm l) (hq' : ∀ l, (qsort' compare l).Perm l)
    (ops : List GateOp) : (run (stepGates qsort) [] ops).Perm (run (stepGates qsort') [] ops) :=
  (run_perm_nodup hq hq' ops).1

/-- No address is twice in the table. -/
theorem run_nodup (hq : ∀ l, (qsort compare l).Perm l) (ops : List GateOp) :
    ((run (stepGates qsort) [] ops).map GateEntry.gateIp).Nodup :=
  (run_perm_nodup hq hq ops).2

end Order

/-! ## The comparison -/

section Compare

theorem shift_ones (s : Dword) (h : (0xffffffff : Dword) <<< s ≠ 0) :
    0x80000000 ≤ (0xffffffff : Dword) <<< s := by
  have hs : s.toNat < 32 := by
    by_contra hge
    exact h (BitVec.shiftLeft_eq_zero (x := (0xffffffff : Dword)) (n := s.toNat) (by omega))
  have hmsb : ((0xffffffff : Dword) <<< s.toNat).msb = true := by
    rw [BitVec.msb_eq_getLsbD_last, BitVec.getLsbD_shiftLeft,
      show (0xffffffff : Dword) = BitVec.allOnes 32 from rfl, BitVec.getLsbD_allOnes]
    simp only [Bool.and_eq_true, Bool.not_eq_true', decide_eq_true_eq, decide_eq_false_iff_not]
    omega
  rw [BitVec.msb_eq_decide] at hmsb
  exact BitVec.le_def.mpr (of_decide_eq_true hmsb)

/-- A mask that passes the check has its top bit set, unless it is `0`. -/
theorem top_of_checkMask {mask : Dword} (h : checkMask mask = true) :
    mask = 0 ∨ 0x80000000 ≤ mask := by
  by_cases h0 : mask = 0
  · exact .inl h0
  · unfold checkMask mlen2mask at h
    have h := of_decide_eq_true h
    split_ifs at h with hlen
    · exact .inr (h ▸ shift_ones _ fun hz => h0 (h.symm.trans hz))
    · exact absurd h.symm h0

variable {a b : GateEntry} {gates : List GateEntry} {e : Env} {ip : Dword}

/-- Where `compare` puts a mask: increasing, with `0` at the end. -/
def rank (gw : GateEntry) : ℕ := if gw.mask = 0 then 2 ^ 32 else gw.mask.toNat

theorem compare_rank (ha : a.mask = 0 ∨ 0x80000000 ≤ a.mask) (hb : b.mask = 0 ∨ 0x80000000 ≤ b.mask)
    (hab : ¬ (a.mask = 0 ∧ b.mask = 0x80000000)) (hba : ¬ (b.mask = 0 ∧ a.mask = 0x80000000)) :
    (compare a b < 0 ↔ rank a < rank b) ∧ (0 < compare a b ↔ rank b < rank a) := by
  have h8 : (0x80000000 : Dword).toNat = 2147483648 := rfl
  have h0 : (0 : Dword).toNat = 0 := rfl
  have ha' := a.mask.isLt
  have hb' := b.mask.isLt
  unfold compare rank
  rw [BitVec.toInt_eq_toNat_cond, BitVec.toNat_sub]
  simp only [BitVec.le_def, ← BitVec.toNat_inj, h8, h0] at *
  split_ifs <;> omega

theorem compare_consistent (hmask : ∀ gw ∈ gates, checkMask gw.mask = true)
    (hno : ∀ gw ∈ gates, gw.mask ≠ 0x80000000) : Qsort.Consistent compare gates :=
  Qsort.consistent_of_key fun a ha b hb => compare_rank (top_of_checkMask (hmask a ha))
    (top_of_checkMask (hmask b hb)) (fun h => hno b hb h.2) fun h => hno a ha h.2

/-- `0.0.0.0` and `128.0.0.0` each come before the other. -/
theorem compare_inconsistent (ha : a ∈ gates) (hb : b ∈ gates) (ha0 : a.mask = 0)
    (hb0 : b.mask = 0x80000000) : ¬ Qsort.Consistent compare gates := by
  intro h
  have := h.swap a ha b hb
  unfold compare at this
  rw [ha0, hb0] at this
  revert this
  decide

end Compare

/-! ## The choice -/

section Choice

variable {a b : GateEntry} {gates gates' : List GateEntry} {e : Env} {ip : Dword}

theorem OneLength.perm (h : gates.Perm gates') (hone : OneLength e gates ip) :
    OneLength e gates' ip := by
  intro a ha b hb hua hub hne
  obtain ⟨h₁, h₂⟩ := hone a (h.mem_iff.mpr ha) b (h.mem_iff.mpr hb) hua hub hne
  exact ⟨h₁, fun gw hgw => h₂ gw (h.mem_iff.mpr hgw)⟩

/-- In a table that is in order as far as the comparison has one. -/
theorem longestPrefix_of_oneLength (hmask : ∀ gw ∈ gates, checkMask gw.mask = true)
    (hsort : Qsort.Consistent compare gates → gates.Pairwise fun a b => compare a b ≤ 0)
    (h : OneLength e gates ip) : LongestPrefix e gates ip := by
  unfold LongestPrefix
  cases hsel : selectGateway e gates ip with
  | none => exact fun gw hgw => by simpa using List.find?_eq_none.mp hsel gw hgw
  | some a =>
    have ha := List.mem_of_find?_eq_some hsel
    have hua := List.find?_some hsel
    refine ⟨ha, hua, fun b hb hub => ?_⟩
    by_cases heq : a.mask = b.mask
    · exact heq ▸ BitVec.le_refl _
    -- the masks differ, so one of them is `0` and the table is in order
    obtain ⟨hzero, hno⟩ := h a ha b hb hua hub heq
    have hcons := compare_consistent hmask hno
    rcases Qsort.find_of_pairwise (hsort hcons) hsel b hb hub with rfl | hle
    · exact BitVec.le_refl _
    · have hrank := (compare_rank (top_of_checkMask (hmask a ha)) (top_of_checkMask (hmask b hb))
        (fun h => hno b hb h.2) fun h => hno a ha h.2).2
      rcases hzero with hzero | hzero
      · exfalso
        have := b.mask.isLt
        have hb0 : b.mask ≠ 0 := fun h => heq (hzero.trans h.symm)
        unfold rank at hrank
        rw [if_pos hzero, if_neg hb0] at hrank
        omega
      · rw [hzero]
        exact BitVec.le_def.mpr (Nat.zero_le _)

/-- The table of the sort that puts the short masks first where the comparison does not help. -/
theorem oneLength_of_longestPrefix (hmask : ∀ gw ∈ gates, checkMask gw.mask = true)
    (hsort : Qsort.Consistent compare gates → gates.Pairwise fun a b => compare a b ≤ 0)
    (hbad : ¬ Qsort.Consistent compare gates → gates.Pairwise fun a b => a.mask ≤ b.mask)
    (h : LongestPrefix e gates ip) : OneLength e gates ip := by
  unfold LongestPrefix at h
  cases hsel : selectGateway e gates ip with
  | none =>
    rw [hsel] at h
    intro a ha b hb hua
    rw [h a ha] at hua
    cases hua
  | some c =>
    rw [hsel] at h
    obtain ⟨hc, huc, hmax⟩ := h
    -- without an order all usable masks are equal
    have hall : ¬ Qsort.Consistent compare gates → ∀ b ∈ gates, usable e ip b = true →
        b.mask = c.mask := by
      intro hno b hb hub
      rcases Qsort.find_of_pairwise (hbad hno) hsel b hb hub with rfl | hle
      · rfl
      · exact BitVec.le_antisymm (hmax b hb hub) hle
    -- with one, all usable masks other than `0` are
    have hnz : ∀ b ∈ gates, usable e ip b = true → b.mask ≠ 0 → b.mask = c.mask := by
      intro b hb hub hb0
      by_cases hcons : Qsort.Consistent compare gates
      · rcases Qsort.find_of_pairwise (hsort hcons) hsel b hb hub with rfl | hle
        · rfl
        · have hcb := hmax b hb hub
          have hc0 : c.mask ≠ 0 := fun h => hb0 (BitVec.le_zero_iff.mp (hcb.trans_eq h))
          have hrank := (compare_rank (top_of_checkMask (hmask c hc)) (top_of_checkMask (hmask b hb))
            (fun h => hc0 h.1) fun h => hb0 h.1).2
          unfold rank at hrank
          rw [if_neg hb0, if_neg hc0] at hrank
          refine BitVec.le_antisymm hcb (BitVec.le_def.mpr ?_)
          omega
      · exact hall hcons b hb hub
    intro a ha b hb hua hub hne
    have hzero : a.mask = 0 ∨ b.mask = 0 := by
      by_contra hno
      rw [not_or] at hno
      exact hne ((hnz a ha hua hno.1).trans (hnz b hb hub hno.2).symm)
    refine ⟨hzero, fun gw hgw hgw8 => ?_⟩
    have hno : ¬ Qsort.Consistent compare gates := by
      rcases hzero with hzero | hzero
      · exact compare_inconsistent ha hgw hzero hgw8
      · exact compare_inconsistent hb hgw hzero hgw8
    exact hne ((hall hno a ha hua).trans (hall hno b hb hub).symm)

/-- Short masks first. -/
def shortFirst (l : List GateEntry) : List GateEntry := l.insertionSort fun a b => a.mask ≤ b.mask

theorem shortFirst_pairwise (l : List GateEntry) :
    (shortFirst l).Pairwise fun a b => a.mask ≤ b.mask := by
  let r : GateEntry → GateEntry → Prop := fun a b => a.mask ≤ b.mask
  have : Std.Total r := ⟨fun a b => BitVec.le_total a.mask b.mask⟩
  have : IsTrans _ r := ⟨fun a b c => BitVec.le_trans⟩
  exact List.pairwise_insertionSort r l

theorem compare_markDead (ip : Dword) (a b : GateEntry) :
    compare (markDead ip a) (markDead ip b) = compare a b := by
  unfold compare
  rw [markDead_mask, markDead_mask]

/-- The table is in order where the comparison has one. -/
theorem run_sorted {qsort : (GateEntry → GateEntry → ℤ) → List GateEntry → List GateEntry}
    (hq : Qsort.Contract qsort) (ops : List GateOp) :
    Qsort.Consistent compare (run (stepGates qsort) [] ops) →
      (run (stepGates qsort) [] ops).Pairwise fun a b => compare a b ≤ 0 := by
  refine run_gates (P := fun l => Qsort.Consistent compare l → l.Pairwise fun a b => compare a b ≤ 0)
    (fun _ => .nil) (fun l h => ?_) (fun l ip ih h => ?_) ops
  · exact hq.sorted _ l (h.mono fun a ha => (hq.perm _ l).mem_iff.mpr ha)
  · rw [List.pairwise_map]
    exact (ih ((Qsort.consistent_map (compare_markDead ip)).mp h)).imp
      fun {a b} hab => (compare_markDead ip a b).trans_le hab

/-- A sort that puts short masks first where the comparison has no order. -/
noncomputable def anySort : (GateEntry → GateEntry → ℤ) → List GateEntry → List GateEntry :=
  Qsort.orElse Qsort.insertion shortFirst

theorem contract_anySort : Qsort.Contract anySort :=
  Qsort.contract_orElse Qsort.contract_insertion fun l => List.perm_insertionSort _ l

theorem run_anySort (ops : List GateOp) :
    ¬ Qsort.Consistent compare (run (stepGates anySort) [] ops) →
      (run (stepGates anySort) [] ops).Pairwise fun a b => a.mask ≤ b.mask := by
  refine run_gates (P := fun l => ¬ Qsort.Consistent compare l →
    l.Pairwise fun a b => a.mask ≤ b.mask) (fun _ => .nil) (fun l h => ?_) (fun l ip ih h => ?_) ops
  · have hl : ¬ Qsort.Consistent compare l := fun hl =>
      h (hl.mono fun a ha => (contract_anySort.perm _ l).mem_iff.mp ha)
    unfold anySort Qsort.orElse
    rw [if_neg hl]
    exact shortFirst_pairwise l
  · rw [List.pairwise_map]
    simp only [markDead_mask]
    exact ih fun hl => h ((Qsort.consistent_map (compare_markDead ip)).mpr hl)

/-- **The choice is longest-prefix match exactly if the usable gateways have one mask, default ones
apart**, over all sorts that keep the contract. -/
theorem longest_prefix_iff (e : Env) (ops : List GateOp) (ip : Dword) :
    (∀ qsort, Qsort.Contract qsort → LongestPrefix e (run (stepGates qsort) [] ops) ip) ↔
      OneLength e (run (stepGates fun _ gates => gates) [] ops) ip := by
  constructor
  · intro h
    have hperm := fun l => contract_anySort.perm compare l
    exact (oneLength_of_longestPrefix (run_checkMask hperm ops) (run_sorted contract_anySort ops)
      (run_anySort ops) (h anySort contract_anySort)).perm (run_perm hperm (fun l => .refl l) ops)
  · intro h qsort hq
    exact longestPrefix_of_oneLength (run_checkMask (fun l => hq.perm compare l) ops)
      (run_sorted hq ops)
      (h.perm (run_perm (fun l => .refl l) (fun l => hq.perm compare l) ops))

theorem not_longestPrefix (hsel : selectGateway e gates ip = some a) (hb : b ∈ gates)
    (hub : usable e ip b = true) (hlt : a.mask < b.mask) : ¬ LongestPrefix e gates ip := by
  intro h
  unfold LongestPrefix at h
  rw [hsel] at h
  exact BitVec.not_le.mpr hlt (h.2.2 b hb hub)

/-- `20.1.0.0/16` through `10.0.0.2` and `20.1.2.0/24` through `10.0.0.3`. -/
def twoRoutes : List GateOp :=
  [.add (some "10.0.0.2, 20.1.0.0, 255.255.0.0".toList) 0,
    .add (some "10.0.0.3, 20.1.2.0, 255.255.255.0".toList) 0]

/-- `20.1.2.3` goes through `10.0.0.2`. -/
theorem longest_prefix_fails :
    ¬ LongestPrefix { myIpAddr := 0x0a000001, sinMask := 0xffffff00, ethAddr := 1 }
      (run (stepGates Qsort.insertion) [] twoRoutes) 0x14010203 :=
  not_longestPrefix (a := { gateIp := 0x0a000002, subnet := 0x14010000, mask := 0xffff0000 })
    (b := { gateIp := 0x0a000003, subnet := 0x14010200, mask := 0xffffff00 })
    (by decide +kernel) (by decide +kernel) (by decide +kernel) (by decide +kernel)

end Choice

end Watt32.Arp
