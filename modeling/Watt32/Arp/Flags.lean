import Watt32.Arp.Fixed

/-!
# The flags of the ARP cache

Whether `ARP_FLG_INUSE` stands for the sections of the table.

* `ArpCache.FlagsAgree`: the flag is set exactly on the live slots, so that a caller of
  `_arp_cache_get` comes across the entries the lookups see.
* `ArpCache.AtBorder c ip`: an entry of `ip` lies next to the free slots, so that no other has to
  move when it is dropped.
* `Released c c' i k`: dropping clears the flag of the slot `i` and gives up the slot `k`.
* **`flags_agree_iff`**: the flags agree in every state of a run exactly if only entries at the
  border are dropped and none expires.
-/

namespace Watt32.Arp

open Slots Machine Timer

/-- `_arp_cache_get`: `arp_list` and its size. -/
def arpCacheGet (c : ArpCache) : (ℤ → ArpEntry) × ℤ := (c.list, arpTopOfCache)

/-- A caller of `_arp_cache_get` that skips what is not in use comes across `ip`. -/
def Enumerated (c : ArpCache) (ip : Dword) : Prop :=
  ∃ i, 0 ≤ i ∧ i < (arpCacheGet c).2 ∧ ((arpCacheGet c).1 i).flags.inuse = true ∧
    ((arpCacheGet c).1 i).ip = ip

/-- `ARP_FLG_INUSE` is set exactly on the live slots, and what is enumerated is what is seen. -/
structure ArpCache.FlagsAgree (c : ArpCache) : Prop where
  inuse : ∀ i, 0 ≤ i → i < arpTopOfCache → ((c.list i).flags.inuse = true ↔ c.Live i)
  seen : ∀ ip, Enumerated c ip ↔ (lanLookup c ip).isSome ∨ lanLookupPending c ip = true

/-- An entry of `ip` is the last one below the free slots or the first one above them. -/
def ArpCache.AtBorder (c : ArpCache) (ip : Dword) : Prop :=
  ∀ i, c.Live i → (c.list i).ip = ip → i = c.firstFree - 1 ∨ i = c.firstPending

/-- No entry from `first` to `top` has expired. -/
def ArpCache.Unexpired (e : Env) (c : ArpCache) (first top : ℤ) : Prop :=
  ∀ i, first ≤ i → i < top → chkTimeout e.now (c.list i).expiry = false

/-- `_arp_handler` drops the entry of the sender and adds it anew. -/
def Replaces (e : Env) (c : ArpCache) (ah : ArpPacket) : Prop :=
  headerOk e ah = true ∧
    (ah.opcode = arpReply ∧ lanLookupPending c ah.srcIpAddr = true ∨
      doReply e ah = true ∧ isOnLan e ah.srcIpAddr = true ∧
        c.search ah.srcIpAddr c.firstDynamic c.firstFree = none)

/-- What is dropped lies at the border, and nothing expires. -/
def KeepsFlags (c : ArpCache) (ev : ArpEvent) : Prop :=
  match ev.op with
  | .startLookup _ => True
  | .add ip _ expires =>
    (¬ (ev.e.myIpAddr = 0 ∧ expires = false) ∧ isOnLan ev.e ip = false) ∨ c.AtBorder ip
  | .del ip => c.AtBorder ip
  | .packet ah => Replaces ev.e c ah → c.AtBorder ah.srcIpAddr
  | .timeouts checkDynamicEntries =>
    c.Unexpired ev.e c.firstPending arpTopOfCache ∧
      (checkDynamicEntries = true → c.Unexpired ev.e c.firstDynamic c.firstFree)

/-! ## Slots in use -/

/-- The flag alone. -/
def ArpCache.Marked (c : ArpCache) : Prop :=
  ∀ i, 0 ≤ i → i < arpTopOfCache → ((c.list i).flags.inuse = true ↔ c.Live i)

/-- A live slot has lost its flag. -/
def ArpCache.Unmarked (c : ArpCache) : Prop :=
  ∃ i, c.Live i ∧ (c.list i).flags.inuse = false

/-- A free slot has kept its flag. -/
def ArpCache.LeftOver (c : ArpCache) : Prop :=
  ∃ i, c.firstFree ≤ i ∧ i < c.firstPending ∧ (c.list i).flags.inuse = true

variable {e : Env} {c c' : ArpCache} {i j k : ℤ} {ip : Dword} {eth : Mac}

theorem ArpCache.WellFormed.live_bounds (h : c.WellFormed) (hi : c.Live i) :
    0 ≤ i ∧ i < arpTopOfCache := by
  have h₁ := h.dynamic_nonneg
  have h₂ := h.free
  have h₃ := h.pending
  have h₄ := h.top
  rcases hi with hi | hi <;> omega

theorem ArpCache.Marked.inuse (hm : c.Marked) (h : c.WellFormed) (hi : c.Live i) :
    (c.list i).flags.inuse = true :=
  (hm i (h.live_bounds hi).1 (h.live_bounds hi).2).mpr hi

theorem ArpCache.Unmarked.not_marked (hu : c.Unmarked) (h : c.WellFormed) : ¬ c.Marked := by
  intro hm
  obtain ⟨i, hi, hoff⟩ := hu
  rw [hm.inuse h hi] at hoff
  cases hoff

theorem ArpCache.LeftOver.not_marked (hl : c.LeftOver) (h : c.WellFormed) : ¬ c.Marked := by
  intro hm
  have h₁ := h.dynamic_nonneg
  have h₂ := h.free
  have h₃ := h.top
  obtain ⟨i, hi, hip, hon⟩ := hl
  have hlive := (hm i (by omega) (by omega)).mp hon
  rcases hlive with hl | hl <;> omega

/-- A live entry is the one its address is looked up in. -/
theorem seen_iff : ((lanLookup c ip).isSome ∨ lanLookupPending c ip = true) ↔
    ∃ i, c.Live i ∧ (c.list i).ip = ip := by
  have hsome : ∀ first top, (c.search ip first top).isSome = true ↔
      ∃ i, first ≤ i ∧ i < top ∧ (c.list i).ip = ip := by
    intro first top
    rw [← not_iff_not, Bool.not_eq_true, search_isSome]
    push Not
    rfl
  unfold lanLookup lanLookupPending
  rw [Option.isSome_map, hsome, hsome]
  constructor
  · rintro (⟨i, hi, hif, hip⟩ | ⟨i, hi, hit, hip⟩)
    · exact ⟨i, .inl ⟨hi, hif⟩, hip⟩
    · exact ⟨i, .inr ⟨hi, hit⟩, hip⟩
  · rintro ⟨i, ⟨hi, hif⟩ | ⟨hi, hit⟩, hip⟩
    · exact .inl ⟨i, hi, hif, hip⟩
    · exact .inr ⟨i, hi, hit, hip⟩

/-- **The flags decide what is enumerated.** -/
theorem flagsAgree_iff_marked (h : c.WellFormed) : c.FlagsAgree ↔ c.Marked := by
  refine ⟨fun hf => hf.inuse, fun hm => ⟨hm, fun ip => ?_⟩⟩
  rw [seen_iff]
  constructor
  · rintro ⟨i, hi, hit, hon, hip⟩
    exact ⟨i, (hm i hi hit).mp hon, hip⟩
  · rintro ⟨i, hi, hip⟩
    obtain ⟨h₀, h₁⟩ := h.live_bounds hi
    exact ⟨i, h₀, h₁, hm.inuse h hi, hip⟩

/-! ## Dropping an entry -/

/-- The slot `i` loses its flag and the slot `k` is free. -/
structure Released (c c' : ArpCache) (i k : ℤ) : Prop where
  inuse : ∀ j, c.Live j → (c'.list j).flags.inuse = (decide (j ≠ i) && (c.list j).flags.inuse)
  other : ∀ j, ¬ c.Live j → (c'.list j).flags.inuse = (c.list j).flags.inuse
  live : ∀ j, c'.Live j ↔ c.Live j ∧ j ≠ k
  room : c'.firstFree < c'.firstPending
  dropped : c.Live i
  border : c.Live k

theorem Released.unmarked (hr : Released c c' i k) (hne : i ≠ k) : c'.Unmarked := by
  refine ⟨i, (hr.live i).mpr ⟨hr.dropped, hne⟩, ?_⟩
  rw [hr.inuse i hr.dropped, decide_eq_false (by simp), Bool.false_and]

theorem Released.marked (hr : Released c c' i i) (hm : c.Marked) : c'.Marked := by
  intro j hj hjt
  rw [hr.live, ← hm j hj hjt]
  by_cases hl : c.Live j
  · rw [hr.inuse j hl, Bool.and_eq_true, decide_eq_true_iff, and_comm]
  · rw [hr.other j hl]
    exact iff_self_and.mpr fun _ hji => hl (hji ▸ hr.dropped)

theorem upd_inuse (f : ArpEntry → ArpEntry) (hoff : ∀ ae, (f ae).flags.inuse = false) (j : ℤ) :
    ((c.upd i f).list j).flags.inuse = (decide (j ≠ i) && (c.list j).flags.inuse) := by
  unfold ArpCache.upd
  dsimp only
  rw [Function.update_apply]
  split_ifs with h
  · rw [hoff, decide_eq_false (by simpa using h), Bool.false_and]
  · rw [decide_eq_true h, Bool.true_and]

theorem delDynamic_released (h : c.WellFormed) (hi : c.firstDynamic ≤ i)
    (hif : i < c.firstFree) : Released c (delDynamic c i) i (c.firstFree - 1) := by
  have h₁ := h.dynamic_nonneg
  have h₃ := h.pending
  unfold delDynamic
  dsimp only
  rw [move_into (by omega)]
  -- the hole loses its flag whatever is moved into it
  have hflag : ∀ j, ((ArpCache.release ({ c with firstFree := c.firstFree - 1 }.moveEntry i
      (c.firstFree - 1)) i).list j).flags.inuse = (decide (j ≠ i) && (c.list j).flags.inuse) := by
    intro j
    unfold ArpCache.release
    rw [upd_inuse _ fun _ => rfl]
    unfold ArpCache.moveEntry
    dsimp only
    rw [move_apply]
    split_ifs with hj
    · rw [decide_eq_false (by simpa using hj), Bool.false_and, Bool.false_and]
    · rfl
  refine ⟨fun j _ => hflag j, fun j hj => ?_, fun j => ?_, ?_, .inl ⟨by omega, hif⟩,
    .inl ⟨by omega, by omega⟩⟩
  · have hji : j ≠ i := fun hji => hj (hji ▸ .inl ⟨by omega, hif⟩)
    rw [hflag, decide_eq_true hji, Bool.true_and]
  all_goals
    dsimp only [ArpCache.Live, ArpCache.release, ArpCache.upd, ArpCache.moveEntry]
    omega

theorem delFixed_released (h : c.WellFormed) (hm : c.Marked) (hi : 0 ≤ i)
    (hif : i < c.firstDynamic) : Released c (delFixed c i) i (c.firstFree - 1) := by
  have h₂ := h.free
  have h₃ := h.pending
  unfold delFixed
  dsimp only
  rw [move_into (i := i) (by omega)]
  rw [move_into (by dsimp only [moveEntry_firstDynamic, moveEntry_firstFree]; omega)]
  -- what is moved is live, and so is what it is moved over
  have hlast : (c.list (c.firstFree - 1)).flags.inuse = true :=
    hm.inuse h (.inl ⟨by omega, by omega⟩)
  have hhole : (c.list (c.firstDynamic - 1)).flags.inuse = true :=
    hm.inuse h (.inl ⟨by omega, by omega⟩)
  have hmoved : ∀ j, (move (move c.list i (c.firstDynamic - 1)) (c.firstDynamic - 1)
      (c.firstFree - 1) j).flags.inuse = true ↔ j = i ∨ (c.list j).flags.inuse = true := by
    have hdropped : (c.list i).flags.inuse = true := hm.inuse h (.inl ⟨hi, by omega⟩)
    intro j
    simp only [move_apply]
    split_ifs with hj hl hji
    · simp [hhole, hj]
    · simp [hlast, hhole, hj]
    · simp [hhole, hji]
    · simp [hji]
  refine ⟨fun j _ => ?_, fun j hj => ?_, fun j => ?_, ?_, .inl ⟨hi, by omega⟩,
    .inl ⟨by omega, by omega⟩⟩
  · unfold ArpCache.release
    rw [upd_inuse _ fun _ => rfl]
    by_cases hji : j = i
    · rw [decide_eq_false (by simpa using hji), Bool.false_and, Bool.false_and]
    · rw [decide_eq_true hji, Bool.true_and, Bool.true_and]
      refine Bool.eq_iff_iff.mpr ((hmoved j).trans ?_)
      exact or_iff_right hji
  · have hji : j ≠ i := fun hji => hj (hji ▸ .inl ⟨hi, by omega⟩)
    unfold ArpCache.release
    rw [upd_inuse _ fun _ => rfl, decide_eq_true hji, Bool.true_and]
    exact Bool.eq_iff_iff.mpr ((hmoved j).trans (or_iff_right hji))
  all_goals
    dsimp only [ArpCache.Live, ArpCache.release, ArpCache.upd, ArpCache.moveEntry]
    omega

/-- A pending entry, with the flags the caller clears. -/
theorem takePending_released (h : c.WellFormed) (hi : c.firstPending ≤ i)
    (hit : i < arpTopOfCache) (f : ArpEntry → ArpEntry) (hoff : ∀ ae, (f ae).flags.inuse = false) :
    Released c ((takePending c i).upd i f) i c.firstPending := by
  have h₂ := h.pending
  unfold takePending
  dsimp only
  rw [move_into (by omega)]
  have hflag : ∀ j, ((ArpCache.upd { c.moveEntry i c.firstPending with
      firstPending := c.firstPending + 1 } i f).list j).flags.inuse =
        (decide (j ≠ i) && (c.list j).flags.inuse) := by
    intro j
    rw [upd_inuse _ hoff]
    unfold ArpCache.moveEntry
    dsimp only
    rw [move_apply]
    split_ifs with hj
    · rw [decide_eq_false (by simpa using hj), Bool.false_and, Bool.false_and]
    · rfl
  refine ⟨fun j _ => hflag j, fun j hj => ?_, fun j => ?_, ?_, .inr ⟨hi, hit⟩,
    .inr ⟨le_rfl, by omega⟩⟩
  · have hji : j ≠ i := fun hji => hj (hji ▸ .inr ⟨hi, hit⟩)
    rw [hflag, decide_eq_true hji, Bool.true_and]
  all_goals
    dsimp only [ArpCache.Live, ArpCache.upd, ArpCache.moveEntry]
    omega

/-- **`_arp_cache_del` finds nothing, or drops the entry of `ip`** in favour of one at the border. -/
theorem arpCacheDel_released (h : c.WellFormed) (hm : c.Marked) (ip : Dword) :
    c.Fresh ip ∧ (arpCacheDel c ip).1 = c ∨
    ∃ i k, (c.list i).ip = ip ∧ (i = k ↔ i = c.firstFree - 1 ∨ i = c.firstPending) ∧
      Released c (arpCacheDel c ip).1 i k := by
  have h₂ := h.free
  have h₃ := h.pending
  obtain ⟨i, hi, hif, hip, heq⟩ | ⟨i, hi, hif, hip, heq⟩ | ⟨i, hi, hit, hip, heq⟩ | ⟨hnew, heq⟩ :=
    arpCacheDel_spec c ip <;> rw [heq]
  · exact .inr ⟨i, c.firstFree - 1, hip, by omega, delDynamic_released h hi hif⟩
  · exact .inr ⟨i, c.firstFree - 1, hip, by omega, delFixed_released h hm hi hif⟩
  · have hr := takePending_released h hi hit
      (fun ae => { ae with flags := { ae.flags with inuse := false } }) fun _ => rfl
    exact .inr ⟨i, c.firstPending, hip, by omega, hr⟩
  · exact .inl ⟨hnew, rfl⟩

/-- Only one slot holds `ip`. -/
theorem atBorder_iff (h : c.WellFormed) (hi : c.Live i) (hip : (c.list i).ip = ip) :
    c.AtBorder ip ↔ i = c.firstFree - 1 ∨ i = c.firstPending := by
  refine ⟨fun hb => hb i hi hip, fun hb j hj hjp => ?_⟩
  rwa [h.unique j i hj hi (hjp.trans hip.symm)]

/-- What `_arp_cache_del` leaves: all flags right, or room and a live slot without its flag. -/
theorem arpCacheDel_flags (h : c.WellFormed) (hm : c.Marked) (ip : Dword) :
    c.AtBorder ip ∧ (arpCacheDel c ip).1.Marked ∨
    ¬ c.AtBorder ip ∧ (arpCacheDel c ip).1.Unmarked ∧
      (arpCacheDel c ip).1.firstFree < (arpCacheDel c ip).1.firstPending := by
  obtain ⟨hnone, heq⟩ | ⟨i, k, hip, hik, hr⟩ := arpCacheDel_released h hm ip
  · rw [heq]
    exact .inl ⟨fun j hj hjp => absurd hjp (hnone j hj), hm⟩
  · rw [atBorder_iff h hr.dropped hip, ← hik]
    by_cases hne : i = k
    · subst hne
      exact .inl ⟨rfl, hr.marked hm⟩
    · exact .inr ⟨hne, hr.unmarked hne, hr.room⟩

theorem arpCacheDel_marked_iff (h : c.WellFormed) (hm : c.Marked) :
    (arpCacheDel c ip).1.Marked ↔ c.AtBorder ip := by
  obtain ⟨σ, d, hr, -⟩ := arpCacheDel_rearranged h ip
  obtain ⟨hb, hm'⟩ | ⟨hb, hu, -⟩ := arpCacheDel_flags h hm ip
  · exact iff_of_true hm' hb
  · exact iff_of_false (hu.not_marked (hr.wellFormed h)) hb

/-! ## Adding an entry -/

theorem addPending_marked (hm : c.Marked) :
    (addPending e c ip).Marked := by
  intro j hj hjt
  unfold addPending ArpCache.upd ArpCache.Live
  dsimp only
  rw [Function.update_apply]
  by_cases hjp : j = c.firstPending - 1
  · rw [if_pos hjp]
    exact iff_of_true rfl (.inr ⟨hjp.ge, hjt⟩)
  · rw [if_neg hjp, hm j hj hjt, ArpCache.Live]
    omega

/-- A slot below the free ones is filled. -/
theorem addDynamic_marked (h : c.WellFormed) (hm : c.Marked) :
    (addDynamic e c ip eth).Marked := by
  have h₁ := h.dynamic_nonneg
  have h₂ := h.free
  intro j hj hjt
  unfold addDynamic ArpCache.upd ArpCache.Live
  dsimp only
  rw [Function.update_apply]
  split_ifs with hjf
  · exact iff_of_true rfl (.inl ⟨by omega, by omega⟩)
  · rw [hm j hj hjt, ArpCache.Live]
    omega

theorem addDynamic_unmarked (hu : c.Unmarked) (hroom : c.firstFree < c.firstPending) :
    (addDynamic e c ip eth).Unmarked := by
  obtain ⟨i, hi, hoff⟩ := hu
  have hne : i ≠ c.firstFree := by
    rcases hi with hi | hi <;> omega
  refine ⟨i, ?_, ?_⟩
  · unfold addDynamic ArpCache.upd ArpCache.Live
    dsimp only
    rcases hi with hi | hi <;> omega
  · unfold addDynamic ArpCache.upd
    dsimp only
    rwa [Function.update_of_ne hne]

/-- The flag of a slot after a fixed entry was put in front of the dynamic ones. -/
theorem addFixed_inuse (h : c.WellFormed) (j : ℤ) :
    ((addFixed c ip eth).list j).flags.inuse =
      if j = c.firstDynamic then true
      else if j = c.firstFree then (c.list c.firstDynamic).flags.inuse
      else (c.list j).flags.inuse := by
  have h₂ := h.free
  unfold addFixed
  dsimp only
  rw [move_into (by omega)]
  unfold ArpCache.upd ArpCache.moveEntry
  dsimp only
  rw [Function.update_apply]
  split_ifs with hd hf
  · rfl
  · rw [move_apply, if_pos hf]
  · rw [move_apply, if_neg hf]

theorem addFixed_live : (addFixed c ip eth).Live j ↔ c.Live j ∨ j = c.firstFree ∧ 0 ≤ j := by
  unfold addFixed ArpCache.Live
  dsimp only
  split_ifs <;> dsimp [ArpCache.upd, ArpCache.moveEntry] <;> omega

/-- The slot to be filled may have kept its flag. -/
theorem addFixed_marked (h : c.WellFormed)
    (hm : ∀ j, 0 ≤ j → j < arpTopOfCache → j ≠ c.firstFree →
      ((c.list j).flags.inuse = true ↔ c.Live j)) : (addFixed c ip eth).Marked := by
  have h₁ := h.dynamic_nonneg
  have h₂ := h.free
  intro j hj hjt
  rw [addFixed_inuse h, addFixed_live]
  split_ifs with hd hf
  · refine iff_of_true rfl ?_
    rcases lt_or_eq_of_le h₂ with hlt | heq
    · exact .inl (.inl ⟨hj, by omega⟩)
    · exact .inr ⟨by omega, hj⟩
  · have hlive : c.Live c.firstDynamic := .inl ⟨h₁, by omega⟩
    refine iff_of_true ((hm _ h₁ ?_ (by omega)).mpr hlive) (.inr ⟨hf, hj⟩)
    exact (h.live_bounds hlive).2
  · rw [hm j hj hjt hf]
    exact (or_iff_left fun h => hf h.1).symm

theorem addFixed_unmarked (h : c.WellFormed) (hu : c.Unmarked)
    (hroom : c.firstFree < c.firstPending) : (addFixed c ip eth).Unmarked := by
  have h₁ := h.dynamic_nonneg
  have h₂ := h.free
  obtain ⟨i, hi, hoff⟩ := hu
  by_cases hd : i = c.firstDynamic
  · -- the first dynamic entry has moved to the top
    have hlt : c.firstDynamic < c.firstFree := by
      rcases hi with hi | hi <;> omega
    refine ⟨c.firstFree, addFixed_live.mpr (.inr ⟨rfl, by omega⟩), ?_⟩
    rw [addFixed_inuse h, if_neg hlt.ne', if_pos rfl, ← hd, hoff]
  · have hf : i ≠ c.firstFree := by
      rcases hi with hi | hi <;> omega
    refine ⟨i, addFixed_live.mpr (.inl hi), ?_⟩
    rw [addFixed_inuse h, if_neg hd, if_neg hf, hoff]

/-- **`_arp_cache_add` keeps the flags right exactly if it adds nothing or what it replaces lies at
the border.** -/
theorem arpCacheAdd_marked_iff (h : c.WellFormed) (hm : c.Marked) {expires : Bool} :
    (arpCacheAdd e c ip eth expires).1.Marked ↔
      (¬ (e.myIpAddr = 0 ∧ expires = false) ∧ isOnLan e ip = false) ∨ c.AtBorder ip := by
  obtain ⟨σ, d, hr, -⟩ := arpCacheDel_rearranged h ip
  have hw := hr.wellFormed h
  have h₂ := hw.free
  have h₃ := hw.pending
  have hadd : (arpCacheAdd e c ip eth expires).1.WellFormed := arpCacheAdd_wellFormed h
  unfold arpCacheAdd at hadd ⊢
  dsimp only at hadd ⊢
  by_cases hlan : ¬ (e.myIpAddr = 0 ∧ expires = false) ∧ isOnLan e ip = false
  · rw [if_pos hlan]
    exact iff_of_true hm (.inl hlan)
  rw [if_neg hlan] at hadd ⊢
  obtain ⟨hb, hm'⟩ | ⟨hb, hu, hroom⟩ := arpCacheDel_flags h hm ip
  · refine iff_of_true ?_ (.inr hb)
    split_ifs with hexp hfull hfull hnone
    · exact hm'
    · exact addDynamic_marked hw hm'
    · exact hm'
    · -- the slot given up is filled again at once
      have hpop := (popDynamic_rearranged hw (not_le.mp hnone)).wellFormed hw
      refine addFixed_marked hpop fun j hj hjt hjf => ?_
      dsimp only [ArpCache.Live] at hjf ⊢
      rw [hm' j hj hjt, ArpCache.Live]
      omega
    · exact addFixed_marked hw fun j hj hjt _ => hm' j hj hjt
  · refine iff_of_false ?_ (by tauto)
    simp only [if_neg hroom.not_ge] at hadd ⊢
    split_ifs at hadd ⊢ with hexp
    · exact (addDynamic_unmarked hu hroom).not_marked hadd
    · exact (addFixed_unmarked hw hu hroom).not_marked hadd

theorem lanStartLookup_marked (h : c.WellFormed) (hm : c.Marked) :
    (lanStartLookup e c ip).1.Marked := by
  have h₃ := h.pending
  unfold lanStartLookup
  split_ifs with hpend hdyn hfix hroom hpop
  · exact hm
  · exact hm
  · exact hm
  · exact addPending_marked hm
  · -- the border moves over the slot that changes hands
    intro j hj hjt
    unfold addPending ArpCache.upd ArpCache.Live
    dsimp only
    rw [Function.update_apply]
    by_cases hjp : j = c.firstPending - 1
    · rw [if_pos hjp]
      exact iff_of_true rfl (.inr ⟨hjp.ge, hjt⟩)
    · rw [if_neg hjp, hm j hj hjt, ArpCache.Live]
      omega
  · exact hm

/-! ## Timeouts -/

section Loops

variable {P : ArpCache → ℤ → ArpCache → Prop}

/-- The loop over the pending entries: `P` of where it stands and what comes out. -/
theorem checkPending_rule (done : ∀ c i, arpTopOfCache ≤ i → P c i c)
    (expired : ∀ c i r, c.firstPending ≤ i → i < arpTopOfCache →
      chkTimeout e.now (c.list i).expiry = true →
      P (takePending c i) (if c.firstPending < i then i else i + 1) r → P c i r)
    (kept : ∀ c i r t, c.firstPending ≤ i → i < arpTopOfCache →
      chkTimeout e.now (c.list i).expiry = false →
      P (c.upd i fun ae => { ae with retransmitTo := t }) (i + 1) r → P c i r)
    (hi : c.firstPending ≤ i) : P c i (checkPending e c i) := by
  induction c, i using checkPending.induct e with
  | case1 c i hit hexp hlt ih =>
    refine expired c i _ hi hit hexp ?_
    unfold checkPending takePending
    rw [if_pos hit, if_pos hexp, if_pos hlt, if_pos hlt, if_pos hlt]
    rw [release_moveEntry hlt.ne] at ih ⊢
    exact ih (by dsimp; omega)
  | case2 c i hit hexp hlt ih =>
    refine expired c i _ hi hit hexp ?_
    unfold checkPending takePending
    rw [if_pos hit, if_pos hexp, if_neg hlt, if_neg hlt, if_neg hlt]
    exact ih (by dsimp only; omega)
  | case3 c i hit hexp hre ih =>
    refine kept c i _ (setTimeout e.now (if e.sent (c.list i).ip then e.arpRexmitTo
      else e.arpRexmitTo / 4)) hi hit (Bool.not_eq_true _ ▸ hexp) ?_
    unfold checkPending
    rw [if_pos hit, if_neg hexp, if_pos hre]
    exact ih (by dsimp; omega)
  | case4 c i hit hexp hre ih =>
    refine kept c i _ (c.list i).retransmitTo hi hit (Bool.not_eq_true _ ▸ hexp) ?_
    have hsame : (c.upd i fun ae => { ae with retransmitTo := (c.list i).retransmitTo }) = c := by
      unfold ArpCache.upd
      dsimp only
      rw [Function.update_eq_self]
    unfold checkPending
    rw [if_pos hit, if_neg hexp, if_neg hre, hsame]
    exact ih (by omega)
  | case5 c i hit =>
    unfold checkPending
    rw [if_neg hit]
    exact done c i (not_lt.mp hit)

/-- The loop over the dynamic entries. -/
theorem checkDynamic_rule (done : ∀ c i, c.firstFree ≤ i → P c i c)
    (expired : ∀ c i r, c.firstDynamic ≤ i → i < c.firstFree →
      chkTimeout e.now (c.list i).expiry = true →
      P ({ c with firstFree := c.firstFree - 1 }.moveEntry i (c.firstFree - 1))
        (if i < c.firstFree - 1 then i else i + 1) r → P c i r)
    (kept : ∀ c i r, c.firstDynamic ≤ i → i < c.firstFree →
      chkTimeout e.now (c.list i).expiry = false → P c (i + 1) r → P c i r)
    (hi : c.firstDynamic ≤ i) : P c i (checkDynamic e c i) := by
  induction c, i using checkDynamic.induct e with
  | case1 c i hif hexp c' hlt ih =>
    refine expired c i _ hi hif hexp ?_
    unfold checkDynamic
    rw [if_pos hif, if_pos hexp, if_pos hlt]
    dsimp only
    rw [if_pos hlt]
    rw [release_moveEntry hlt.ne'] at ih ⊢
    exact ih hi
  | case2 c i hif hexp c' hlt ih =>
    refine expired c i _ hi hif hexp ?_
    have hself : c'.moveEntry i (c.firstFree - 1) = c' := by
      rw [← move_into (p := False) fun _ => by dsimp only [c'] at hlt; omega, if_neg not_false]
    unfold checkDynamic
    rw [if_pos hif, if_pos hexp, if_neg hlt]
    dsimp only
    rw [if_neg hlt, hself]
    exact ih (by dsimp only [c']; omega)
  | case3 c i hif hexp ih =>
    refine kept c i _ hi hif (Bool.not_eq_true _ ▸ hexp) ?_
    unfold checkDynamic
    rw [if_pos hif, if_neg hexp]
    exact ih (by omega)
  | case4 c i hif =>
    unfold checkDynamic
    rw [if_neg hif]
    exact done c i (not_lt.mp hif)

end Loops

/-- Nothing below the pending entries is touched. -/
theorem checkPending_frame (hi : c.firstPending ≤ i) :
    (checkPending e c i).firstDynamic = c.firstDynamic ∧
    (checkPending e c i).firstFree = c.firstFree ∧
    c.firstPending ≤ (checkPending e c i).firstPending ∧
    ∀ j, j < c.firstPending → (checkPending e c i).list j = c.list j := by
  refine checkPending_rule (P := fun c _ r => r.firstDynamic = c.firstDynamic ∧
    r.firstFree = c.firstFree ∧ c.firstPending ≤ r.firstPending ∧
    ∀ j, j < c.firstPending → r.list j = c.list j) ?_ ?_ ?_ hi
  · exact fun c _ _ => ⟨rfl, rfl, le_rfl, fun _ _ => rfl⟩
  · rintro c i r hi - - ⟨h₁, h₂, h₃, h₄⟩
    unfold takePending at h₁ h₂ h₃ h₄
    dsimp only at h₁ h₂ h₃ h₄
    rw [move_into (by omega)] at h₁ h₂ h₄
    refine ⟨h₁, h₂, by omega, fun j hj => ?_⟩
    rw [h₄ j (by omega)]
    unfold ArpCache.moveEntry
    dsimp only
    rw [move_apply, if_neg (by omega)]
  · rintro c i r t hi - - ⟨h₁, h₂, h₃, h₄⟩
    refine ⟨h₁, h₂, h₃, fun j hj => (h₄ j hj).trans ?_⟩
    unfold ArpCache.upd
    dsimp only
    rw [Function.update_of_ne (by omega)]

/-- Nothing above the dynamic entries is touched. -/
theorem checkDynamic_frame (hi : c.firstDynamic ≤ i) :
    (checkDynamic e c i).firstPending = c.firstPending ∧
    (checkDynamic e c i).firstFree ≤ c.firstFree ∧
    ∀ j, c.firstFree ≤ j → (checkDynamic e c i).list j = c.list j := by
  refine checkDynamic_rule (P := fun c _ r => r.firstPending = c.firstPending ∧
    r.firstFree ≤ c.firstFree ∧ ∀ j, c.firstFree ≤ j → r.list j = c.list j) ?_ ?_ ?_ hi
  · exact fun c _ _ => ⟨rfl, le_rfl, fun _ _ => rfl⟩
  · rintro c i r - hif - ⟨h₁, h₂, h₃⟩
    dsimp only [moveEntry_firstPending, moveEntry_firstFree] at h₁ h₂ h₃
    refine ⟨h₁, by omega, fun j hj => (h₃ j (by omega)).trans ?_⟩
    unfold ArpCache.moveEntry
    dsimp only
    rw [move_apply, if_neg (by omega)]
  · exact fun c i r _ _ _ h => h

theorem takePending_leftOver (h₂ : c.firstFree ≤ c.firstPending) (hi : c.firstPending ≤ i)
    (hl : c.LeftOver ∨ (c.list c.firstPending).flags.inuse = true) : (takePending c i).LeftOver := by
  obtain ⟨j, hj, hjp, hon⟩ : ∃ j, c.firstFree ≤ j ∧ j ≤ c.firstPending ∧
      (c.list j).flags.inuse = true := by
    rcases hl with ⟨j, hj, hjp, hon⟩ | hon
    · exact ⟨j, hj, hjp.le, hon⟩
    · exact ⟨c.firstPending, h₂, le_rfl, hon⟩
  unfold takePending
  dsimp only
  rw [move_into (by omega)]
  refine ⟨j, hj, by dsimp only; omega, ?_⟩
  unfold ArpCache.moveEntry
  dsimp only
  rw [move_apply]
  split_ifs with hji
  · rwa [show c.firstPending = j by omega]
  · exact hon

theorem unexpired_succ {top : ℤ} (hexp : chkTimeout e.now (c.list i).expiry = false)
    (hc' : ∀ j, (c'.list j).expiry = (c.list j).expiry) :
    c'.Unexpired e (i + 1) top ↔ c.Unexpired e i top := by
  refine ⟨fun hu j hj hjt => ?_, fun hu j hj hjt => ?_⟩
  · rcases eq_or_lt_of_le hj with rfl | hlt
    · exact hexp
    · exact hc' j ▸ hu j (by omega) hjt
  · exact (hc' j).symm ▸ hu j (by omega) hjt

/-- Every pending entry that has expired leaves its flag behind. -/
theorem checkPending_flags (h : c.WellFormed) (hm : c.Marked) (hi : c.firstPending ≤ i) :
    (checkPending e c i).Marked ∧ c.Unexpired e i arpTopOfCache ∨
    (checkPending e c i).LeftOver ∧ ¬ c.Unexpired e i arpTopOfCache := by
  refine (checkPending_rule (P := fun c i r => c.firstFree ≤ c.firstPending →
    (c.LeftOver → r.LeftOver) ∧ (c.WellFormed → c.Marked →
      r.Marked ∧ c.Unexpired e i arpTopOfCache ∨
      r.LeftOver ∧ ¬ c.Unexpired e i arpTopOfCache)) ?_ ?_ ?_ hi h.pending).2 h hm
  · exact fun c i hit h₂ => ⟨id, fun h hm => .inl ⟨hm, fun j hj hjt => by omega⟩⟩
  · intro c i r hi hit hexp ih h₂
    have hfree : (takePending c i).firstFree ≤ (takePending c i).firstPending := by
      unfold takePending
      rw [move_into (by omega)]
      dsimp only [moveEntry_firstFree]
      omega
    have hleft := takePending_leftOver h₂ hi
    refine ⟨fun hl => (ih hfree).1 (hleft (.inl hl)), fun h hm => .inr ⟨?_, fun hu => ?_⟩⟩
    · exact (ih hfree).1 (hleft (.inr (hm.inuse h (.inr ⟨le_rfl, by omega⟩))))
    · rw [hu i le_rfl hit] at hexp
      cases hexp
  · intro c i r t hi hit hexp ih h₂
    obtain ⟨ih₁, ih₂⟩ := ih h₂
    -- the timer of a retransmission says nothing about the flags
    have hsame : ∀ j, ((c.upd i fun ae => { ae with retransmitTo := t }).list j).flags =
        (c.list j).flags ∧ ((c.upd i fun ae => { ae with retransmitTo := t }).list j).expiry =
        (c.list j).expiry := by
      intro j
      unfold ArpCache.upd
      dsimp only
      rw [Function.update_apply]
      split_ifs with hj
      · exact ⟨hj ▸ rfl, hj ▸ rfl⟩
      · exact ⟨rfl, rfl⟩
    rw [unexpired_succ hexp fun j => (hsame j).2] at ih₂
    refine ⟨fun ⟨j, hj, hjp, hon⟩ => ih₁ ⟨j, hj, hjp, by rwa [(hsame j).1]⟩, fun h hm => ?_⟩
    refine ih₂ (h.upd fun _ => ⟨rfl, rfl, rfl, rfl, id⟩) fun j hj hjt => ?_
    rw [(hsame j).1]
    exact hm j hj hjt

/-- Every dynamic entry that has expired leaves its flag behind. -/
theorem checkDynamic_flags (h : c.WellFormed) (hm : c.Marked) (hi : c.firstDynamic ≤ i) :
    (checkDynamic e c i).Marked ∧ c.Unexpired e i c.firstFree ∨
    (checkDynamic e c i).LeftOver ∧ ¬ c.Unexpired e i c.firstFree := by
  refine (checkDynamic_rule (P := fun c i r => c.firstFree ≤ c.firstPending →
    (c.LeftOver → r.LeftOver) ∧ (c.WellFormed → c.Marked →
      r.Marked ∧ c.Unexpired e i c.firstFree ∨
      r.LeftOver ∧ ¬ c.Unexpired e i c.firstFree)) ?_ ?_ ?_ hi h.pending).2 h hm
  · exact fun c i hif h₂ => ⟨id, fun h hm => .inl ⟨hm, fun j hj hjt => by omega⟩⟩
  · intro c i r hi hif hexp ih h₂
    -- the slot given up is not touched
    have hleft : c.LeftOver ∨ (c.list (c.firstFree - 1)).flags.inuse = true →
        ArpCache.LeftOver ({ c with firstFree := c.firstFree - 1 }.moveEntry i
          (c.firstFree - 1)) := by
      intro hl
      obtain ⟨j, hj, hjp, hon⟩ : ∃ j, c.firstFree - 1 ≤ j ∧ j < c.firstPending ∧
          (c.list j).flags.inuse = true := by
        rcases hl with ⟨j, hj, hjp, hon⟩ | hon
        · exact ⟨j, by omega, hjp, hon⟩
        · exact ⟨c.firstFree - 1, le_rfl, by omega, hon⟩
      refine ⟨j, hj, hjp, ?_⟩
      unfold ArpCache.moveEntry
      dsimp only
      rw [move_apply]
      split_ifs with hji
      · rwa [show c.firstFree - 1 = j by omega]
      · exact hon
    obtain ⟨ih, -⟩ := ih (by dsimp only [moveEntry_firstFree, moveEntry_firstPending]; omega)
    refine ⟨fun hl => ih (hleft (.inl hl)), fun h hm => .inr ⟨?_, fun hu => ?_⟩⟩
    · have h₁ := h.dynamic_nonneg
      exact ih (hleft (.inr (hm.inuse h (.inl ⟨by omega, by omega⟩))))
    · rw [hu i le_rfl hif] at hexp
      cases hexp
  · intro c i r hi hif hexp ih h₂
    rw [unexpired_succ hexp fun _ => rfl] at ih
    exact ih h₂

/-- **`arp_check_timeouts` keeps the flags right exactly if nothing has expired.** -/
theorem arpCheckTimeouts_marked_iff (h : c.WellFormed) (hm : c.Marked)
    {checkDynamicEntries : Bool} :
    (arpCheckTimeouts e c checkDynamicEntries).Marked ↔
      c.Unexpired e c.firstPending arpTopOfCache ∧
        (checkDynamicEntries = true → c.Unexpired e c.firstDynamic c.firstFree) := by
  obtain ⟨hd, hf, hp, hlist⟩ := checkPending_frame (e := e) (c := c) le_rfl
  have hw := checkPending_wellFormed (e := e) h le_rfl
  have h₂ := h.free
  have h₃ := h.pending
  unfold arpCheckTimeouts
  dsimp only
  obtain ⟨hm', hu⟩ | ⟨hl, hu⟩ := checkPending_flags (e := e) h hm le_rfl
  · split_ifs with hc
    · have hexp : (checkPending e c c.firstPending).Unexpired e
          (checkPending e c c.firstPending).firstDynamic
          (checkPending e c c.firstPending).firstFree ↔
          c.Unexpired e c.firstDynamic c.firstFree := by
        rw [hd, hf]
        refine forall_congr' fun j => imp_congr_right fun hj => forall_congr' fun hjf => ?_
        rw [hlist j (by omega)]
      obtain ⟨hm'', hu'⟩ | ⟨hl, hu'⟩ := checkDynamic_flags (e := e) hw hm' le_rfl
      · exact iff_of_true hm'' ⟨hu, fun _ => hexp.mp hu'⟩
      · exact iff_of_false (hl.not_marked (checkDynamic_wellFormed hw le_rfl))
          fun h => hu' (hexp.mpr (h.2 hc))
    · exact iff_of_true hm' ⟨hu, fun hc' => absurd hc' hc⟩
  · refine iff_of_false ?_ fun h => hu h.1
    split_ifs with hc
    · obtain ⟨hp', hf', hlist'⟩ := checkDynamic_frame (e := e)
        (c := checkPending e c c.firstPending) le_rfl
      obtain ⟨j, hj, hjp, hon⟩ := hl
      have hl' : (checkDynamic e (checkPending e c c.firstPending)
          (checkPending e c c.firstPending).firstDynamic).LeftOver :=
        ⟨j, by omega, by omega, by rwa [hlist' j hj]⟩
      exact hl'.not_marked (checkDynamic_wellFormed hw le_rfl)
    · exact hl.not_marked hw

/-! ## Packets -/

theorem refreshDynamic_marked {ah : ArpPacket} (hm : c.Marked) :
    (refreshDynamic e c ah i).Marked := by
  intro j hj hjt
  rw [show (refreshDynamic e c ah i).Live j ↔ c.Live j from Iff.rfl, ← hm j hj hjt]
  unfold refreshDynamic ArpCache.upd
  dsimp only
  rw [Function.update_apply]
  by_cases hji : j = i
  · rw [if_pos hji, hji]
  · rw [if_neg hji]

/-- A reply to a pending entry. -/
theorem resolvePending_marked_iff {ah : ArpPacket} (h : c.WellFormed) (hm : c.Marked)
    (hs : c.search ah.srcIpAddr c.firstPending arpTopOfCache = some i) :
    (resolvePending e c ah i).Marked ↔ c.AtBorder ah.srcIpAddr := by
  obtain ⟨hi, hit, hip⟩ := search_eq_some hs
  have h₂ := h.pending
  have hr := takePending_released h hi hit
    (fun ae => { ae with flags := { ae.flags with inuse := false, pending := false } }) fun _ => rfl
  have hre := (takePending_rearranged h hi hit).upd (i := i) (f := fun ae =>
    { ae with flags := { ae.flags with inuse := false, pending := false } })
    fun _ => ⟨rfl, rfl, rfl, rfl, fun hp => by cases hp⟩
  have hw := hre.wellFormed h
  -- no entry of the sender is left
  have hnew : ArpCache.Fresh _ ah.srcIpAddr := hre.fresh h fun k hk =>
    ⟨fun hkp => h.unique _ _ hk (.inr ⟨hi, hit⟩) (hkp.trans hip.symm), fun hki => hki ▸ hip⟩
  rw [atBorder_iff h (.inr ⟨hi, hit⟩) hip, or_iff_right (by omega)]
  unfold resolvePending
  by_cases hip' : i = c.firstPending
  · refine iff_of_true ?_ hip'
    rw [← hip'] at hr
    exact (arpCacheAdd_marked_iff hw (hr.marked hm)).mpr
      (.inr fun j hj hjp => absurd hjp (hnew j hj))
  · refine iff_of_false ?_ hip'
    have hadd : (arpCacheAdd e _ ah.srcIpAddr ah.srcEthAddr true).1.WellFormed :=
      arpCacheAdd_wellFormed hw
    have hu := hr.unmarked hip'
    rw [arpCacheAdd_dynamic, arpCacheDel_fresh hw hnew, if_neg hr.room.not_ge] at hadd ⊢
    split_ifs at hadd ⊢
    · exact hu.not_marked hw
    · exact (addDynamic_unmarked hu hr.room).not_marked hadd

/-- **A packet keeps the flags right exactly if what it replaces lies at the border.** -/
theorem arpHandler_marked_iff {ah : ArpPacket} (h : c.WellFormed) (hm : c.Marked) :
    (arpHandler e c ah).1.Marked ↔ (Replaces e c ah → c.AtBorder ah.srcIpAddr) := by
  unfold Replaces arpHandler lanLookupPending
  by_cases hok : headerOk e ah = true
  swap
  · rw [if_pos (Bool.eq_false_iff.mpr hok)]
    exact iff_of_true hm fun h => absurd h.1 hok
  rw [if_neg (by simp [hok])]
  by_cases hpend : ah.opcode = arpReply ∧
      (c.search ah.srcIpAddr c.firstPending arpTopOfCache).isSome = true
  · obtain ⟨hrep, hsome⟩ := hpend
    obtain ⟨i, hs⟩ := Option.isSome_iff_exists.mp hsome
    rw [if_pos hrep, hs]
    exact (resolvePending_marked_iff h hm hs).trans
      ⟨fun h _ => h, fun h => h ⟨hok, .inl ⟨hrep, rfl⟩⟩⟩
  have hnone : (if ah.opcode = arpReply then
      c.search ah.srcIpAddr c.firstPending arpTopOfCache else none) = none := by
    split_ifs with hrep
    · exact Option.not_isSome_iff_eq_none.mp fun hs => hpend ⟨hrep, hs⟩
    · rfl
  rw [hnone, and_iff_right hok, or_iff_right hpend]
  dsimp only
  by_cases hop : ah.opcode ≠ arpRequest ∧ ah.opcode ≠ arpReply
  · rw [if_pos hop]
    refine iff_of_true hm fun h => absurd ?_ hop.1
    exact (of_decide_eq_true h.1).1
  rw [if_neg hop]
  cases hdyn : c.search ah.srcIpAddr c.firstDynamic c.firstFree with
  | some i => exact iff_of_true (refreshDynamic_marked hm) fun h => by cases h.2.2
  | none =>
    dsimp only
    by_cases hreply : doReply e ah = true
    · rw [if_pos hreply, arpCacheAdd_marked_iff h hm]
      simp only [hreply, true_and, and_true, Bool.true_eq_false, and_false, not_false_eq_true]
      rw [← Bool.not_eq_true, imp_iff_not_or]
    · rw [if_neg hreply]
      exact iff_of_true hm fun h => absurd h.1 hreply

/-! ## Runs -/

theorem stepArp_marked_iff (h : c.WellFormed) (hm : c.Marked) (ev : ArpEvent) :
    (stepArp c ev).Marked ↔ KeepsFlags c ev := by
  unfold stepArp KeepsFlags
  cases ev.op with
  | startLookup ip => exact iff_of_true (lanStartLookup_marked h hm) trivial
  | add ip eth expires => exact arpCacheAdd_marked_iff h hm
  | del ip => exact arpCacheDel_marked_iff h hm
  | packet ah => exact arpHandler_marked_iff h hm
  | timeouts checkDynamicEntries => exact arpCheckTimeouts_marked_iff h hm

theorem empty_marked : ArpCache.empty.Marked := by
  intro i hi hit
  refine iff_of_false Bool.false_ne_true ?_
  unfold ArpCache.Live ArpCache.empty
  dsimp only
  omega

/-- **The flags agree with the sections**, so that `_arp_cache_get` enumerates what the lookups see,
in every state of a run exactly if at each step what is dropped lies at the border of the free slots
and no entry expires. -/
theorem flags_agree_iff (evs : List ArpEvent) :
    Always stepArp (fun c ev => (stepArp c ev).FlagsAgree) .empty evs ↔
      Always stepArp KeepsFlags .empty evs := by
  refine always_iff_of_invariant (I := fun c => c.WellFormed ∧ c.Marked) ?_ ?_ evs
    ⟨empty_wellFormed, empty_marked⟩
  · rintro c ev ⟨h, hm⟩ hk
    exact ⟨stepArp_wellFormed h ev, (stepArp_marked_iff h hm ev).mpr hk⟩
  · rintro c ev ⟨h, hm⟩
    exact (flagsAgree_iff_marked (stepArp_wellFormed h ev)).trans (stepArp_marked_iff h hm ev)

/-- Two hosts answer, and the first one is deleted. -/
def firstDeleted : List ArpEvent :=
  let e : Env := { myIpAddr := 0x0a000001, sinMask := 0xffffff00, ethAddr := 0x020000000001 }
  [⟨e, .add 0x0a000007 0x020000000007 true⟩, ⟨e, .add 0x0a000008 0x020000000008 true⟩,
    ⟨e, .del 0x0a000007⟩]

theorem flags_disagree :
    ¬ Always stepArp (fun c ev => (stepArp c ev).FlagsAgree) .empty firstDeleted := by
  rintro ⟨-, -, h, -⟩
  -- the second host has moved down without the flag
  have hlive := (h.inuse 0 le_rfl (by decide)).mpr (.inl ⟨le_rfl, by decide⟩)
  revert hlive
  decide

end Watt32.Arp
