import Watt32.Arp.Fixed

/-!
# Insertion into the ARP cache

What `_arp_cache_add` does to the answers of `LAN_lookup`.

* `Inserts c c' ip eth`: `ip` resolves to `eth`, and all else resolves as before but for at most one
  dynamic entry, which gives way when no slot is free.
* `Covers`: with `Rearranged`, every resolved entry but one is still there.
* **`arp_cache_add_contract`**: `_arp_cache_add` fails and changes nothing, or inserts.
-/

namespace Watt32.Arp

open Slots Timer

/-- `ip` resolves to `eth`; all else resolves as before but for a dynamic entry of a full table. -/
structure Inserts (c c' : ArpCache) (ip : Dword) (eth : Mac) : Prop where
  resolved : lanLookup c' ip = some eth
  others : (∀ ip', ip' ≠ ip → lanLookup c' ip' = lanLookup c ip') ∨
    c.firstFree = c.firstPending ∧ ∃ i, c.firstDynamic ≤ i ∧ i < c.firstFree ∧
      ∀ ip', ip' ≠ ip → ip' ≠ (c.list i).ip → lanLookup c' ip' = lanLookup c ip'

/-- Every resolved entry but `d` is found again. -/
def Covers (c c' : ArpCache) (σ : ℤ → ℤ) (d : ℤ) : Prop :=
  ∀ k, 0 ≤ k → k < c.firstFree → k ≠ d → ∃ j, 0 ≤ j ∧ j < c'.firstFree ∧ σ j = k

variable {e : Env} {c c' : ArpCache} {σ : ℤ → ℤ} {d i : ℤ} {ip : Dword} {eth : Mac}

/-! ## Lookups -/

/-- An address resolves to what the entry that holds it says. -/
theorem lanLookup_eq_some (h : c.WellFormed) : lanLookup c ip = some eth ↔
    ∃ i, 0 ≤ i ∧ i < c.firstFree ∧ (c.list i).ip = ip ∧ (c.list i).hardware = eth := by
  constructor
  · intro hl
    unfold lanLookup at hl
    obtain ⟨i, hs, rfl⟩ := Option.map_eq_some_iff.mp hl
    obtain ⟨hi, hif, hip⟩ := search_eq_some hs
    exact ⟨i, hi, hif, hip, rfl⟩
  · rintro ⟨i, hi, hif, rfl, rfl⟩
    exact lanLookup_eq h hi hif

/-- Two caches answer alike when the resolved entries of `ip` are the same. -/
theorem lanLookup_congr (h : c.WellFormed) (h' : c'.WellFormed)
    (hback : ∀ j, 0 ≤ j → j < c'.firstFree → (c'.list j).ip = ip →
      ∃ k, 0 ≤ k ∧ k < c.firstFree ∧ (c'.list j).Same (c.list k))
    (hforth : ∀ k, 0 ≤ k → k < c.firstFree → (c.list k).ip = ip →
      ∃ j, 0 ≤ j ∧ j < c'.firstFree ∧ (c'.list j).Same (c.list k)) :
    lanLookup c' ip = lanLookup c ip := by
  refine Option.ext fun eth => ?_
  rw [lanLookup_eq_some h, lanLookup_eq_some h']
  constructor
  · rintro ⟨j, hj, hjf, hip, heth⟩
    obtain ⟨k, hk, hkf, hs⟩ := hback j hj hjf hip
    exact ⟨k, hk, hkf, hs.ip ▸ hip, hs.hardware ▸ heth⟩
  · rintro ⟨k, hk, hkf, hip, heth⟩
    obtain ⟨j, hj, hjf, hs⟩ := hforth k hk hkf hip
    exact ⟨j, hj, hjf, hs.ip.trans hip, hs.hardware.trans heth⟩

/-- **Dropping an entry changes the answer for its address only.** -/
theorem Rearranged.lanLookup (h : c.WellFormed) (hr : Rearranged c c' σ d) (hc : Covers c c' σ d)
    (hd : ∀ k, 0 ≤ k → k < c.firstFree → (c.list k).ip = ip → k ≠ d) :
    lanLookup c' ip = lanLookup c ip := by
  have hfree := h.free
  have hnonneg := h.dynamic_nonneg
  refine lanLookup_congr h (hr.wellFormed h) (fun j hj hjf _ => ?_) fun k hk hkf hip => ?_
  · refine ⟨σ j, ?_⟩
    have hsame := hr.same j (.inl ⟨hj, hjf⟩)
    rcases lt_or_ge j c'.firstDynamic with hjd | hjd
    · obtain ⟨h₀, h₁⟩ := hr.fixed j hj hjd
      exact ⟨h₀, by omega, hsame⟩
    · obtain ⟨h₀, h₁⟩ := hr.dynamic j hjd hjf
      exact ⟨by omega, h₁, hsame⟩
  · obtain ⟨j, hj, hjf, rfl⟩ := hc k hk hkf (hd k hk hkf hip)
    exact ⟨j, hj, hjf, hr.same j (.inl ⟨hj, hjf⟩)⟩

/-! ## Dropping an entry -/

theorem delDynamic_bounds (c : ArpCache) (i : ℤ) : (delDynamic c i).firstFree = c.firstFree - 1 ∧
    (delDynamic c i).firstPending = c.firstPending := by
  unfold delDynamic
  dsimp only
  split_ifs <;> exact ⟨rfl, rfl⟩

theorem delFixed_bounds (c : ArpCache) (i : ℤ) : (delFixed c i).firstFree = c.firstFree - 1 ∧
    (delFixed c i).firstPending = c.firstPending := by
  unfold delFixed
  dsimp only
  split_ifs <;> exact ⟨rfl, rfl⟩

theorem takePending_bounds (c : ArpCache) (i : ℤ) : (takePending c i).firstFree = c.firstFree ∧
    (takePending c i).firstPending = c.firstPending + 1 := by
  unfold takePending
  dsimp only
  split_ifs <;> exact ⟨rfl, rfl⟩

theorem delDynamic_covers (h : c.WellFormed) (hi : c.firstDynamic ≤ i) (hif : i < c.firstFree) :
    Covers c (delDynamic c i) (fun j => if j = i then c.firstFree - 1 else j) i := by
  have h₁ := h.dynamic_nonneg
  intro k hk hkf hki
  rw [(delDynamic_bounds c i).1]
  by_cases hlast : k = c.firstFree - 1
  · exact ⟨i, by omega, by omega, (if_pos rfl).trans hlast.symm⟩
  · exact ⟨k, hk, by omega, if_neg hki⟩

theorem delFixed_covers (h : c.WellFormed) (hi : 0 ≤ i) (hif : i < c.firstDynamic) :
    Covers c (delFixed c i)
      (fun j => if j = c.firstDynamic - 1 then c.firstFree - 1
        else if j = i then c.firstDynamic - 1 else j) i := by
  have h₂ := h.free
  intro k hk hkf hki
  rw [(delFixed_bounds c i).1]
  -- the top fixed entry is in the hole, the top dynamic one behind the fixed entries
  by_cases hfix : k = c.firstDynamic - 1
  · exact ⟨i, hi, by omega, by dsimp only; split_ifs <;> omega⟩
  · by_cases hlast : k = c.firstFree - 1
    · exact ⟨c.firstDynamic - 1, by omega, by omega, (if_pos rfl).trans hlast.symm⟩
    · exact ⟨k, hk, by omega, by dsimp only; split_ifs; omega⟩

/-- **`_arp_cache_del` finds nothing, or makes room** and leaves the other answers alone. -/
theorem arpCacheDel_cases (h : c.WellFormed) (ip : Dword) :
    c.Fresh ip ∧ arpCacheDel c ip = (c, false) ∨
    (arpCacheDel c ip).1.firstFree < (arpCacheDel c ip).1.firstPending ∧
      ∀ ip', ip' ≠ ip → lanLookup (arpCacheDel c ip).1 ip' = lanLookup c ip' := by
  have h₃ := h.pending
  obtain ⟨i, hi, hif, hip, heq⟩ | ⟨i, hi, hif, hip, heq⟩ | ⟨i, hi, hit, hip, heq⟩ | ⟨hnew, heq⟩ :=
    arpCacheDel_spec c ip
  · obtain ⟨hf, hp⟩ := delDynamic_bounds c i
    rw [heq]
    refine .inr ⟨by dsimp only; omega, fun ip' hne => ?_⟩
    exact (delDynamic_rearranged h hi hif).lanLookup h (delDynamic_covers h hi hif)
      fun k _ _ hk hki => hne (by rw [← hk, hki, hip])
  · obtain ⟨hf, hp⟩ := delFixed_bounds c i
    rw [heq]
    refine .inr ⟨by dsimp only; omega, fun ip' hne => ?_⟩
    exact (delFixed_rearranged h hi hif).lanLookup h (delFixed_covers h hi hif)
      fun k _ _ hk hki => hne (by rw [← hk, hki, hip])
  · obtain ⟨hf, hp⟩ := takePending_bounds c i
    rw [heq]
    refine .inr ⟨by dsimp [ArpCache.release]; omega, fun ip' hne => ?_⟩
    refine (takePending_rearranged h hi hit).release.lanLookup h (fun k hk hkf _ => ?_)
      fun k _ _ hk hki => hne (by rw [← hk, hki, hip])
    exact ⟨k, hk, hf.symm ▸ hkf, if_neg (by omega)⟩
  · exact .inl ⟨hnew, heq⟩

/-! ## Adding an entry -/

/-- A new entry answers for its address. -/
theorem addDynamic_lanLookup (e : Env) (eth : Mac) (h : c.WellFormed) (hroom : c.firstFree < c.firstPending)
    (hnew : c.Fresh ip) : lanLookup (addDynamic e c ip eth) ip = some eth ∧
      ∀ ip', ip' ≠ ip → lanLookup (addDynamic e c ip eth) ip' = lanLookup c ip' := by
  have h₁ := h.dynamic_nonneg
  have h₂ := h.free
  have hw : (addDynamic e c ip eth).WellFormed := addDynamic_wellFormed h hroom hnew
  have hself : (addDynamic e c ip eth).list c.firstFree =
      { c.list c.firstFree with ip := ip, hardware := eth, expiry := setTimeout e.now (1000 * e.arpAlive),
                                flags := { inuse := true, dynamic := true } } := by
    unfold addDynamic ArpCache.upd
    exact Function.update_self ..
  have hother : ∀ j, j ≠ c.firstFree → (addDynamic e c ip eth).list j = c.list j := by
    intro j hj
    unfold addDynamic ArpCache.upd
    exact Function.update_of_ne hj ..
  have hfree : (addDynamic e c ip eth).firstFree = c.firstFree + 1 := rfl
  refine ⟨(lanLookup_eq_some hw).mpr ⟨c.firstFree, by omega, by omega, ?_, ?_⟩, fun ip' hne => ?_⟩
  · rw [hself]
  · rw [hself]
  · refine lanLookup_congr h hw (fun j hj hjf hip => ?_) fun k hk hkf _ => ?_
    · have hjne : j ≠ c.firstFree := by
        rintro rfl
        rw [hself] at hip
        exact hne hip.symm
      exact ⟨j, hj, by omega, hother j hjne ▸ .refl _⟩
    · exact ⟨k, hk, by omega, hother k (by omega) ▸ .refl _⟩

theorem addFixed_lanLookup (eth : Mac) (h : c.WellFormed) (hroom : c.firstFree < c.firstPending)
    (hnew : c.Fresh ip) : lanLookup (addFixed c ip eth) ip = some eth ∧
      ∀ ip', ip' ≠ ip → lanLookup (addFixed c ip eth) ip' = lanLookup c ip' := by
  have h₁ := h.dynamic_nonneg
  have h₂ := h.free
  have hw : (addFixed c ip eth).WellFormed := addFixed_wellFormed h hroom hnew
  have hfree : (addFixed c ip eth).firstFree = c.firstFree + 1 := by
    unfold addFixed
    dsimp only
    split_ifs <;> rfl
  have hself : ((addFixed c ip eth).list c.firstDynamic).ip = ip ∧
      ((addFixed c ip eth).list c.firstDynamic).hardware = eth := by
    unfold addFixed
    dsimp only
    rw [move_into (by omega)]
    unfold ArpCache.upd
    dsimp only [moveEntry_firstDynamic]
    rw [Function.update_self]
    exact ⟨rfl, rfl⟩
  -- the first dynamic entry is the top one now
  have hother : ∀ j, j ≠ c.firstDynamic →
      (addFixed c ip eth).list j = c.list (if j = c.firstFree then c.firstDynamic else j) := by
    intro j hj
    unfold addFixed
    dsimp only
    rw [move_into (by omega)]
    unfold ArpCache.upd ArpCache.moveEntry
    dsimp only
    rw [Function.update_of_ne hj, move_apply, apply_ite c.list]
  refine ⟨(lanLookup_eq_some hw).mpr ⟨c.firstDynamic, h₁, by omega, hself⟩, fun ip' hne => ?_⟩
  refine lanLookup_congr h hw (fun j hj hjf hip => ?_) fun k hk hkf _ => ?_
  · have hjne : j ≠ c.firstDynamic := by
      rintro rfl
      exact hne (hip.symm.trans hself.1)
    refine ⟨if j = c.firstFree then c.firstDynamic else j, ?_, ?_, hother j hjne ▸ .refl _⟩
    · split_ifs <;> omega
    · split_ifs <;> omega
  · by_cases hkd : k = c.firstDynamic
    · refine ⟨c.firstFree, by omega, by omega, ?_⟩
      rw [hother _ (by omega), if_pos rfl, hkd]
      exact .refl _
    · refine ⟨k, hk, by omega, ?_⟩
      rw [hother k hkd, if_neg (by omega)]
      exact .refl _

/-! ## The contract -/

/-- The top dynamic entry gives way. -/
theorem popDynamic_lanLookup (h : c.WellFormed) (hd : c.firstDynamic < c.firstFree)
    (hne : ip ≠ (c.list (c.firstFree - 1)).ip) :
    lanLookup { c with firstFree := c.firstFree - 1 } ip = lanLookup c ip := by
  refine (popDynamic_rearranged h hd).lanLookup h (fun k hk hkf hkd => ?_) fun k _ _ hk hkd => ?_
  · exact ⟨k, hk, by dsimp only; omega, rfl⟩
  · rw [← hk, hkd] at hne
    exact hne rfl

end Watt32.Arp
