import Watt32.Arp.Regions

/-!
# Fixed entries of the ARP cache

What a packet does to the entries the user has configured.

* `KeepsFixed c c'`: what the fixed entries of `c` resolve is resolved the same in `c'`, and they
  stay fixed.
* `Hijacks e c ah`: the request `ah` is answered and comes from the address of a fixed entry.
* **`fixed_kept_iff`**: a packet keeps the fixed entries exactly if it does not hijack one.
-/

namespace Watt32.Arp

open Slots Machine

/-- `ip` has a fixed entry. -/
def ArpCache.IsFixed (c : ArpCache) (ip : Dword) : Prop :=
  ∃ i, 0 ≤ i ∧ i < c.firstDynamic ∧ (c.list i).ip = ip

/-- The addresses with a fixed entry resolve as before and stay fixed. -/
def KeepsFixed (c c' : ArpCache) : Prop :=
  ∀ ip, c.IsFixed ip → lanLookup c' ip = lanLookup c ip ∧ c'.IsFixed ip

/-- A request that is answered, from the address of a fixed entry. -/
def Hijacks (e : Env) (c : ArpCache) (ah : ArpPacket) : Prop :=
  headerOk e ah = true ∧ doReply e ah = true ∧ isOnLan e ah.srcIpAddr = true ∧
    c.IsFixed ah.srcIpAddr

variable {e : Env} {c c' c'' : ArpCache} {ah : ArpPacket} {σ : ℤ → ℤ} {d i : ℤ} {ip : Dword}
  {eth : Mac}

theorem KeepsFixed.refl (c : ArpCache) : KeepsFixed c c := fun _ h => ⟨rfl, h⟩

theorem KeepsFixed.trans (h : KeepsFixed c c') (h' : KeepsFixed c' c'') : KeepsFixed c c'' := by
  intro ip hip
  obtain ⟨h₁, h₂⟩ := h ip hip
  obtain ⟨h₃, h₄⟩ := h' ip h₂
  exact ⟨h₃.trans h₁, h₄⟩

/-- The lookup finds the only live entry of an address. -/
theorem lanLookup_eq (h : c.WellFormed) (hi : 0 ≤ i) (hif : i < c.firstFree) :
    lanLookup c (c.list i).ip = some (c.list i).hardware := by
  unfold lanLookup
  cases hs : c.search (c.list i).ip 0 c.firstFree with
  | none => exact absurd rfl (search_eq_none.mp hs i hi hif)
  | some j =>
    obtain ⟨hj, hjf, hip⟩ := search_eq_some hs
    rw [h.unique j i (.inl ⟨hj, hjf⟩) (.inl ⟨hi, hif⟩) hip]
    rfl

/-- Fixed entries that are moved around are kept. -/
theorem keepsFixed_of_entries (h : c.WellFormed) (h' : c'.WellFormed)
    (hmove : ∀ k, 0 ≤ k → k < c.firstDynamic →
      ∃ j, 0 ≤ j ∧ j < c'.firstDynamic ∧ (c'.list j).Same (c.list k)) : KeepsFixed c c' := by
  rintro ip ⟨k, hk, hkd, rfl⟩
  obtain ⟨j, hj, hjd, hs⟩ := hmove k hk hkd
  refine ⟨?_, j, hj, hjd, hs.ip⟩
  have hfree := h.free
  have hfree' := h'.free
  rw [lanLookup_eq h hk (by omega), ← hs.ip, ← hs.hardware, lanLookup_eq h' hj (by omega)]

theorem Rearranged.keepsFixed (h : c.WellFormed) (hr : Rearranged c c' σ d)
    (hd : ∀ k, 0 ≤ k → k < c.firstDynamic → k ≠ d) : KeepsFixed c c' := by
  refine keepsFixed_of_entries h (hr.wellFormed h) fun k hk hkd => ?_
  obtain ⟨j, hj, hjd, rfl⟩ := hr.kept k hk hkd (hd k hk hkd)
  have hfree := hr.order.2.1
  exact ⟨j, hj, hjd, hr.same j (.inl ⟨hj, by omega⟩)⟩

theorem addDynamic_keepsFixed (h : c.WellFormed) (hroom : c.firstFree < c.firstPending)
    (hnew : c.Fresh ip) : KeepsFixed c (addDynamic e c ip eth) := by
  refine keepsFixed_of_entries h (addDynamic_wellFormed h hroom hnew) fun k hk hkd => ?_
  have hfree := h.free
  refine ⟨k, hk, hkd, ?_⟩
  unfold addDynamic ArpCache.upd
  dsimp only
  rw [Function.update_of_ne (by omega)]
  exact .refl _

theorem arpCacheAdd_dynamic (e : Env) (c : ArpCache) (ip : Dword) (eth : Mac) :
    (arpCacheAdd e c ip eth true).1 =
      if isOnLan e ip = false then c
      else if (arpCacheDel c ip).1.firstPending ≤ (arpCacheDel c ip).1.firstFree then
        (arpCacheDel c ip).1
      else addDynamic e (arpCacheDel c ip).1 ip eth := by
  unfold arpCacheAdd
  dsimp only
  rw [if_pos rfl, apply_ite Prod.fst, apply_ite Prod.fst]
  exact if_congr (by simp) rfl rfl

/-- A dynamic entry does not touch the fixed ones of other addresses. -/
theorem arpCacheAdd_keepsFixed (h : c.WellFormed) (hfix : ¬ c.IsFixed ip) :
    KeepsFixed c (arpCacheAdd e c ip eth true).1 := by
  obtain ⟨σ, d, hr, hd⟩ := arpCacheDel_rearranged h ip
  have hdel : KeepsFixed c (arpCacheDel c ip).1 := hr.keepsFixed h fun k hk hkd hkd' =>
    hfix ⟨k, hk, hkd, (hd k (.inl ⟨hk, by have := h.free; omega⟩)).mpr hkd'⟩
  rw [arpCacheAdd_dynamic]
  split_ifs with hlan hfull
  · exact .refl _
  · exact hdel
  · exact hdel.trans (addDynamic_keepsFixed (hr.wellFormed h) (not_le.mp hfull) (hr.fresh h hd))

/-- A dynamic entry on the LAN replaces the fixed one of its address. -/
theorem arpCacheAdd_not_isFixed (h : c.WellFormed) (eth : Mac) (hlan : isOnLan e ip = true) :
    ¬ (arpCacheAdd e c ip eth true).1.IsFixed ip := by
  obtain ⟨σ, d, hr, hd⟩ := arpCacheDel_rearranged h ip
  have hw := hr.wellFormed h
  have hnew := hr.fresh h hd
  have hfree := hw.free
  rw [arpCacheAdd_dynamic, if_neg (by simpa using hlan)]
  split_ifs with hfull
  · rintro ⟨i, hi, hid, hip⟩
    exact hnew i (.inl ⟨hi, by omega⟩) hip
  · rintro ⟨i, hi, hid, hip⟩
    unfold addDynamic ArpCache.upd at hip hid
    dsimp only at hip hid
    rw [Function.update_of_ne (by omega)] at hip
    exact hnew i (.inl ⟨hi, by omega⟩) hip

theorem resolvePending_keepsFixed (h : c.WellFormed)
    (hs : c.search ah.srcIpAddr c.firstPending arpTopOfCache = some i) :
    KeepsFixed c (resolvePending e c ah i) := by
  obtain ⟨hi, hit, hip⟩ := search_eq_some hs
  have hr := (takePending_rearranged h hi hit).upd (i := i) (f := fun ae =>
    { ae with flags := { ae.flags with inuse := false, pending := false } })
    fun _ => ⟨rfl, rfl, rfl, rfl, fun hp => by cases hp⟩
  have hfree := h.free
  have hpend := h.pending
  refine (hr.keepsFixed h fun k hk hkd => by omega).trans
    (arpCacheAdd_keepsFixed (hr.wellFormed h) ?_)
  rintro ⟨j, hj, hjd, hjip⟩
  have hjl : ArpCache.Live _ j := .inl ⟨hj, hjd.trans_le hr.order.2.1⟩
  refine hr.dropped j hjl (h.unique _ _ (hr.live h hjl) (.inr ⟨hi, hit⟩) ?_)
  rw [← (hr.same j hjl).ip, hjip, hip]

/-- An answered request adds its sender, unless that is in the cache already. -/
theorem arpHandler_request (hok : headerOk e ah = true) (hreply : doReply e ah = true)
    (hdyn : c.search ah.srcIpAddr c.firstDynamic c.firstFree = none) :
    (arpHandler e c ah).1 = (arpCacheAdd e c ah.srcIpAddr ah.srcEthAddr true).1 := by
  have hreq : ah.opcode = arpRequest := by
    unfold doReply at hreply
    exact (of_decide_eq_true hreply).1
  unfold arpHandler
  rw [if_neg (by rw [hok]; decide), if_neg (by rw [hreq]; decide)]
  dsimp only
  rw [if_neg fun hop => hop.1 hreq, hdyn, if_pos hreply]

/-- **A packet keeps the fixed entries exactly if it is not an answered request from the address of
one of them.** -/
theorem fixed_kept_iff (evs : List ArpEvent) (e : Env) (ah : ArpPacket) :
    KeepsFixed (run stepArp .empty evs) (arpHandler e (run stepArp .empty evs) ah).1 ↔
      ¬ Hijacks e (run stepArp .empty evs) ah := by
  have h := run_wellFormed evs
  generalize run stepArp .empty evs = c at h
  constructor
  · rintro hkeeps ⟨hok, hreply, hlan, hfix⟩
    refine arpCacheAdd_not_isFixed h ah.srcEthAddr hlan ?_
    have hdyn : c.search ah.srcIpAddr c.firstDynamic c.firstFree = none := by
      obtain ⟨k, hk, hkd, hip⟩ := hfix
      have hfree := h.free
      refine search_eq_none.mpr fun j hj hjf hjip => ?_
      have := h.unique j k (.inl ⟨by omega, hjf⟩) (.inl ⟨hk, by omega⟩) (hjip.trans hip.symm)
      omega
    rw [← arpHandler_request hok hreply hdyn]
    exact (hkeeps _ hfix).2
  · intro hno
    obtain heq | ⟨i, -, hi, heq⟩ | ⟨i, -, heq⟩ | ⟨hok, hreply, -, heq⟩ :=
      arpHandler_cases e c ah <;> rw [heq]
    · exact .refl c
    · exact resolvePending_keepsFixed h hi
    · refine ((Rearranged.refl h).upd fun _ => ?_).keepsFixed h fun k hk _ => by omega
      exact ⟨rfl, rfl, rfl, rfl, id⟩
    · by_cases hlan : isOnLan e ah.srcIpAddr = true
      · exact arpCacheAdd_keepsFixed h fun hfix => hno ⟨hok, hreply, hlan, hfix⟩
      · rw [arpCacheAdd_dynamic, if_pos (by simpa using hlan)]
        exact .refl c

/-- `10.0.0.7` is configured. -/
def configured : List ArpEvent :=
  [⟨{ myIpAddr := 0x0a000001, sinMask := 0xffffff00, ethAddr := 0x020000000001 },
    .add 0x0a000007 0x020000000007 false⟩]

/-- A request for `10.0.0.1` that says it comes from `10.0.0.7`. -/
def spoofed : ArpPacket where
  macDst := ethBrdcast
  opcode := arpRequest
  srcEthAddr := 0x0200000000ee
  srcIpAddr := 0x0a000007
  dstEthAddr := 0
  dstIpAddr := 0x0a000001

theorem fixed_hijacked :
    ¬ KeepsFixed (run stepArp .empty configured)
      (arpHandler { myIpAddr := 0x0a000001, sinMask := 0xffffff00, ethAddr := 0x020000000001 }
        (run stepArp .empty configured) spoofed).1 := by
  intro h
  have := (h 0x0a000007 ⟨0, le_rfl, by decide, by decide⟩).1
  revert this
  decide

end Watt32.Arp
