import Watt32.Lib.Run
import Watt32.Arp.Cache

/-!
# The sections of the ARP cache

* `ArpCache.WellFormed`: the order of the index variables, each kind of entry in its section, no
  address twice.
* `Drops c c' d`: what dropping an entry does, whichever section it is in.
* **`arp_cache_wellFormed`**: the cache is well formed after every run.
-/

namespace Watt32.Arp

open Slots Machine

/-- The slots in use. -/
def ArpCache.Live (c : ArpCache) (i : ℤ) : Prop :=
  0 ≤ i ∧ i < c.firstFree ∨ c.firstPending ≤ i ∧ i < arpTopOfCache

/-- The entry `i` is of the kind of its section. -/
structure ArpCache.Placed (c : ArpCache) (i : ℤ) : Prop where
  fixed : (c.list i).flags.fixed = true ↔ 0 ≤ i ∧ i < c.firstDynamic
  dynamic : (c.list i).flags.dynamic = true ↔ c.firstDynamic ≤ i ∧ i < c.firstFree
  pending : (c.list i).flags.pending = true → c.firstPending ≤ i ∧ i < arpTopOfCache

/-- The structure of the cache. -/
structure ArpCache.WellFormed (c : ArpCache) : Prop where
  dynamic_nonneg : 0 ≤ c.firstDynamic
  free : c.firstDynamic ≤ c.firstFree
  pending : c.firstFree ≤ c.firstPending
  top : c.firstPending ≤ arpTopOfCache
  placed : ∀ i, c.Live i → c.Placed i
  unique : Distinct ArpEntry.ip c.Live c.list

/-- Two entries that differ in their timers and in marks that no section asks for. -/
structure ArpEntry.Same (a b : ArpEntry) : Prop where
  ip : a.ip = b.ip
  hardware : a.hardware = b.hardware
  fixed : a.flags.fixed = b.flags.fixed
  dynamic : a.flags.dynamic = b.flags.dynamic
  pending : a.flags.pending = true → b.flags.pending = true

theorem ArpEntry.Same.refl (a : ArpEntry) : a.Same a := ⟨rfl, rfl, rfl, rfl, id⟩

theorem ArpEntry.Same.trans {a b c : ArpEntry} (h : a.Same b) (h' : b.Same c) : a.Same c :=
  ⟨h.ip.trans h'.ip, h.hardware.trans h'.hardware, h.fixed.trans h'.fixed,
    h.dynamic.trans h'.dynamic, h'.pending ∘ h.pending⟩

/-- Every live slot `j` of `c'` holds the entry of the live slot `σ j` of `c`, in the same section;
`d` is dropped and the fixed entries but for `d` are kept. -/
structure Rearranged (c c' : ArpCache) (σ : ℤ → ℤ) (d : ℤ) : Prop where
  order : 0 ≤ c'.firstDynamic ∧ c'.firstDynamic ≤ c'.firstFree ∧ c'.firstFree ≤ c'.firstPending ∧
    c'.firstPending ≤ arpTopOfCache
  same : ∀ j, c'.Live j → (c'.list j).Same (c.list (σ j))
  fixed : ∀ j, 0 ≤ j → j < c'.firstDynamic → 0 ≤ σ j ∧ σ j < c.firstDynamic
  dynamic : ∀ j, c'.firstDynamic ≤ j → j < c'.firstFree →
    c.firstDynamic ≤ σ j ∧ σ j < c.firstFree
  pending : ∀ j, c'.firstPending ≤ j → j < arpTopOfCache →
    c.firstPending ≤ σ j ∧ σ j < arpTopOfCache
  inj : ∀ j k, c'.Live j → c'.Live k → σ j = σ k → j = k
  dropped : ∀ j, c'.Live j → σ j ≠ d
  kept : ∀ k, 0 ≤ k → k < c.firstDynamic → k ≠ d → ∃ j, 0 ≤ j ∧ j < c'.firstDynamic ∧ σ j = k

section Rearranged

variable {c c' : ArpCache} {σ : ℤ → ℤ} {d : ℤ}

theorem Rearranged.live (h : c.WellFormed) (hr : Rearranged c c' σ d) {j : ℤ} (hj : c'.Live j) :
    c.Live (σ j) := by
  have h₁ := h.dynamic_nonneg
  have h₂ := h.free
  rcases hj with ⟨hj, hjf⟩ | ⟨hj, hjt⟩
  · rcases lt_or_ge j c'.firstDynamic with hd | hd
    · have := hr.fixed j hj hd
      exact .inl (by omega)
    · have := hr.dynamic j hd hjf
      exact .inl (by omega)
  · exact .inr (hr.pending j hj hjt)

/-- **A rearranged cache is well formed.** -/
theorem Rearranged.wellFormed (h : c.WellFormed) (hr : Rearranged c c' σ d) : c'.WellFormed := by
  obtain ⟨ho₁, ho₂, ho₃, ho₄⟩ := hr.order
  have h₁ := h.dynamic_nonneg
  have h₂ := h.free
  have h₃ := h.pending
  have h₄ := h.top
  refine ⟨ho₁, ho₂, ho₃, ho₄, fun j hj => ?_, fun j k hj hk heq => ?_⟩
  · have hs := hr.same j hj
    have hp := h.placed _ (hr.live h hj)
    have hfix := hr.fixed j
    have hdyn := hr.dynamic j
    have hpend := hr.pending j
    refine ⟨?_, ?_, fun hm => ?_⟩
    · rw [hs.fixed, hp.fixed]
      rcases hj with hj | hj <;> omega
    · rw [hs.dynamic, hp.dynamic]
      rcases hj with hj | hj <;> omega
    · have := hp.pending (hs.pending hm)
      rcases hj with hj | hj <;> omega
  · have hj' := hr.same j hj
    have hk' := hr.same k hk
    exact hr.inj j k hj hk (h.unique _ _ (hr.live h hj) (hr.live h hk)
      (hj'.ip.symm.trans (heq.trans hk'.ip)))

end Rearranged

/-! ## Changes in place -/

section Fields

variable (c : ArpCache) (i j : ℤ) (f : ArpEntry → ArpEntry)

@[simp] theorem upd_firstDynamic : (c.upd i f).firstDynamic = c.firstDynamic := rfl
@[simp] theorem upd_firstFree : (c.upd i f).firstFree = c.firstFree := rfl
@[simp] theorem upd_firstPending : (c.upd i f).firstPending = c.firstPending := rfl
@[simp] theorem moveEntry_firstDynamic : (c.moveEntry i j).firstDynamic = c.firstDynamic := rfl
@[simp] theorem moveEntry_firstFree : (c.moveEntry i j).firstFree = c.firstFree := rfl
@[simp] theorem moveEntry_firstPending : (c.moveEntry i j).firstPending = c.firstPending := rfl

end Fields

variable {c c' : ArpCache} {σ : ℤ → ℤ} {d i : ℤ} {f : ArpEntry → ArpEntry}

theorem ArpCache.upd_same (hf : ∀ ae, (f ae).Same ae) (j : ℤ) :
    ((c.upd i f).list j).Same (c.list j) := by
  unfold ArpCache.upd
  dsimp only
  rw [Function.update_apply]
  split_ifs with h
  · exact h ▸ hf _
  · exact .refl _

theorem Rearranged.upd (hr : Rearranged c c' σ d) (hf : ∀ ae, (f ae).Same ae) :
    Rearranged c (c'.upd i f) σ d :=
  { hr with same := fun j hj => (ArpCache.upd_same hf j).trans (hr.same j hj) }

theorem Rearranged.release (hr : Rearranged c c' σ d) : Rearranged c (c'.release i) σ d :=
  hr.upd fun _ => ⟨rfl, rfl, rfl, rfl, id⟩

/-- Nothing is moved; `-1` stands for no slot. -/
theorem Rearranged.refl (h : c.WellFormed) : Rearranged c c id (-1) where
  order := ⟨h.dynamic_nonneg, h.free, h.pending, h.top⟩
  same _ _ := .refl _
  fixed _ h₁ h₂ := ⟨h₁, h₂⟩
  dynamic _ h₁ h₂ := ⟨h₁, h₂⟩
  pending _ h₁ h₂ := ⟨h₁, h₂⟩
  inj _ _ _ _ heq := heq
  dropped j hj := by
    have h₁ := h.dynamic_nonneg
    have h₂ := h.free
    have h₃ := h.pending
    rcases hj with hj | hj <;> simp only [id] <;> omega
  kept k h₁ h₂ _ := ⟨k, h₁, h₂, rfl⟩

/-! ## Dropping an entry -/

/-- An entry moves into the hole, or is the hole. -/
theorem move_into {p : Prop} [Decidable p] {s : ℤ} (h : ¬ p → i = s) :
    (if p then c.moveEntry i s else c) = c.moveEntry i s := by
  split_ifs with hp
  · rfl
  · rw [h hp]
    unfold ArpCache.moveEntry
    rw [move_self]

theorem fillDynamic_rearranged (h : c.WellFormed) (hi : c.firstDynamic ≤ i)
    (hif : i < c.firstFree) :
    Rearranged c ({ c with firstFree := c.firstFree - 1 }.moveEntry i (c.firstFree - 1))
      (fun j => if j = i then c.firstFree - 1 else j) i := by
  obtain ⟨h₁, h₂, h₃, h₄, -, -⟩ := h
  constructor <;> dsimp only [ArpCache.Live, ArpCache.moveEntry]
  case order => omega
  case same =>
    intro j _
    rw [move_apply, apply_ite c.list]
    exact .refl _
  case kept =>
    intro k hk hkd _
    exact ⟨k, hk, hkd, if_neg (by omega)⟩
  case inj =>
    intro j k hj hk heq
    split_ifs at heq <;> omega
  all_goals
    intros
    split_ifs <;> omega

theorem delDynamic_rearranged (h : c.WellFormed) (hi : c.firstDynamic ≤ i)
    (hif : i < c.firstFree) :
    Rearranged c (delDynamic c i) (fun j => if j = i then c.firstFree - 1 else j) i := by
  unfold delDynamic
  dsimp only
  rw [move_into (by omega)]
  exact (fillDynamic_rearranged h hi hif).release

theorem delFixed_rearranged (h : c.WellFormed) (hi : 0 ≤ i) (hif : i < c.firstDynamic) :
    Rearranged c (delFixed c i)
      (fun j => if j = c.firstDynamic - 1 then c.firstFree - 1
        else if j = i then c.firstDynamic - 1 else j) i := by
  obtain ⟨h₁, h₂, h₃, h₄, -, -⟩ := h
  unfold delFixed
  dsimp only
  rw [move_into (i := i) (by omega)]
  rw [move_into (by dsimp only [moveEntry_firstDynamic, moveEntry_firstFree]; omega)]
  refine Rearranged.release ?_
  constructor <;> dsimp only [ArpCache.Live, ArpCache.moveEntry]
  case order => omega
  case same =>
    intro j _
    have : move (move c.list i (c.firstDynamic - 1)) (c.firstDynamic - 1) (c.firstFree - 1) j
        = c.list (if j = c.firstDynamic - 1 then c.firstFree - 1
          else if j = i then c.firstDynamic - 1 else j) := by
      simp only [move_apply]
      split_ifs
      all_goals first | rfl | (congr 1; omega)
    rw [this]
    exact .refl _
  case kept =>
    intro k hk hkd hki
    by_cases hlast : k = c.firstDynamic - 1
    · exact ⟨i, hi, by omega, by rw [if_neg (by omega), if_pos rfl, hlast]⟩
    · exact ⟨k, hk, by omega, by rw [if_neg hlast, if_neg hki]⟩
  case inj =>
    intro j k hj hk heq
    split_ifs at heq <;> omega
  all_goals
    intros
    split_ifs <;> omega

theorem takePending_rearranged (h : c.WellFormed) (hi : c.firstPending ≤ i)
    (hit : i < arpTopOfCache) :
    Rearranged c (takePending c i) (fun j => if j = i then c.firstPending else j) i := by
  obtain ⟨h₁, h₂, h₃, h₄, -, -⟩ := h
  unfold takePending
  dsimp only
  rw [move_into (by omega)]
  constructor <;> dsimp only [ArpCache.Live, ArpCache.moveEntry]
  case order => omega
  case same =>
    intro j _
    rw [move_apply, apply_ite c.list]
    exact .refl _
  case kept =>
    intro k hk hkd _
    exact ⟨k, hk, hkd, if_neg (by omega)⟩
  case inj =>
    intro j k hj hk heq
    split_ifs at heq <;> omega
  all_goals
    intros
    split_ifs <;> omega

theorem popDynamic_rearranged (h : c.WellFormed) (hd : c.firstDynamic < c.firstFree) :
    Rearranged c { c with firstFree := c.firstFree - 1 } id (c.firstFree - 1) := by
  obtain ⟨h₁, h₂, h₃, h₄, -, -⟩ := h
  constructor <;> dsimp only [ArpCache.Live, id]
  case same => exact fun j _ => .refl _
  case kept => exact fun k hk hkd _ => ⟨k, hk, hkd, rfl⟩
  all_goals omega

theorem popPending_rearranged (h : c.WellFormed) (hp : c.firstPending < arpTopOfCache) :
    Rearranged c { c with firstPending := c.firstPending + 1 } id c.firstPending := by
  obtain ⟨h₁, h₂, h₃, h₄, -, -⟩ := h
  constructor <;> dsimp only [ArpCache.Live, id]
  case same => exact fun j _ => .refl _
  case kept => exact fun k hk hkd _ => ⟨k, hk, hkd, rfl⟩
  all_goals omega

/-! ## Searching -/

section Search

variable {ip : Dword} {first top : ℤ}

theorem search_eq_some (h : c.search ip first top = some i) :
    first ≤ i ∧ i < top ∧ (c.list i).ip = ip := by
  obtain ⟨h₁, h₂, h₃, -⟩ := find_eq_some h
  exact ⟨h₁, by omega, of_decide_eq_true h₃⟩

theorem search_eq_none :
    c.search ip first top = none ↔ ∀ j, first ≤ j → j < top → (c.list j).ip ≠ ip := by
  unfold ArpCache.search
  rw [find_eq_none]
  refine forall_congr' fun j => forall_congr' fun hj => ?_
  rw [decide_eq_false_iff_not]
  exact imp_congr_left (by omega)

theorem search_isSome :
    (c.search ip first top).isSome = false ↔ ∀ j, first ≤ j → j < top → (c.list j).ip ≠ ip := by
  rw [← search_eq_none, Option.isSome_eq_false_iff, Option.isNone_iff_eq_none]

/-- No live entry holds `ip`. -/
def ArpCache.Fresh (c : ArpCache) (ip : Dword) : Prop := ∀ j, c.Live j → (c.list j).ip ≠ ip

/-- What `_arp_cache_del` can do. -/
theorem arpCacheDel_spec (c : ArpCache) (ip : Dword) :
    (∃ i, c.firstDynamic ≤ i ∧ i < c.firstFree ∧ (c.list i).ip = ip ∧
      arpCacheDel c ip = (delDynamic c i, true)) ∨
    (∃ i, 0 ≤ i ∧ i < c.firstDynamic ∧ (c.list i).ip = ip ∧
      arpCacheDel c ip = (delFixed c i, true)) ∨
    (∃ i, c.firstPending ≤ i ∧ i < arpTopOfCache ∧ (c.list i).ip = ip ∧
      arpCacheDel c ip = ((takePending c i).release i, true)) ∨
    c.Fresh ip ∧ arpCacheDel c ip = (c, false) := by
  unfold arpCacheDel
  cases hdyn : c.search ip c.firstDynamic c.firstFree with
  | some i =>
    obtain ⟨hi, hif, hip⟩ := search_eq_some hdyn
    exact .inl ⟨i, hi, hif, hip, rfl⟩
  | none =>
    cases hfix : c.search ip 0 c.firstDynamic with
    | some i =>
      obtain ⟨hi, hif, hip⟩ := search_eq_some hfix
      exact .inr (.inl ⟨i, hi, hif, hip, rfl⟩)
    | none =>
      cases hpend : c.search ip c.firstPending arpTopOfCache with
      | some i =>
        obtain ⟨hi, hit, hip⟩ := search_eq_some hpend
        exact .inr (.inr (.inl ⟨i, hi, hit, hip, rfl⟩))
      | none =>
        rw [search_eq_none] at hdyn hfix hpend
        refine .inr (.inr (.inr ⟨?_, rfl⟩))
        rintro j (⟨hj, hjf⟩ | ⟨hj, hjt⟩)
        · rcases lt_or_ge j c.firstDynamic with hd | hd
          · exact hfix j hj hd
          · exact hdyn j hd hjf
        · exact hpend j hj hjt

/-- **`_arp_cache_del` drops the entry of `ip`**, which only one slot holds. -/
theorem arpCacheDel_rearranged (h : c.WellFormed) (ip : Dword) :
    ∃ σ d, Rearranged c (arpCacheDel c ip).1 σ d ∧
      ∀ k, c.Live k → ((c.list k).ip = ip ↔ k = d) := by
  have h₁ := h.dynamic_nonneg
  have h₂ := h.free
  have only : ∀ {i}, c.Live i → (c.list i).ip = ip →
      ∀ k, c.Live k → ((c.list k).ip = ip ↔ k = i) :=
    fun hi hip k hk => ⟨fun hkip => h.unique _ _ hk hi (hkip.trans hip.symm), fun hki => hki ▸ hip⟩
  obtain ⟨i, hi, hif, hip, heq⟩ | ⟨i, hi, hif, hip, heq⟩ | ⟨i, hi, hit, hip, heq⟩ | ⟨hnew, heq⟩ :=
    arpCacheDel_spec c ip <;> rw [heq]
  · exact ⟨_, _, delDynamic_rearranged h hi hif, only (.inl ⟨by omega, hif⟩) hip⟩
  · exact ⟨_, _, delFixed_rearranged h hi hif, only (.inl ⟨hi, by omega⟩) hip⟩
  · exact ⟨_, _, (takePending_rearranged h hi hit).release, only (.inr ⟨hi, hit⟩) hip⟩
  · refine ⟨_, _, .refl h, fun k hk => ⟨fun hip => absurd hip (hnew k hk), fun hk' => ?_⟩⟩
    exact absurd hk' ((Rearranged.refl h).dropped k hk)

/-- What was the only entry of `ip` is gone. -/
theorem Rearranged.fresh (h : c.WellFormed) (hr : Rearranged c c' σ d)
    (hd : ∀ k, c.Live k → ((c.list k).ip = ip ↔ k = d)) : c'.Fresh ip := by
  intro j hj hip
  refine hr.dropped j hj ((hd _ (hr.live h hj)).mp ?_)
  rw [← (hr.same j hj).ip, hip]

/-- What is not there is not dropped. -/
theorem arpCacheDel_fresh (h : c.WellFormed) (hnew : c.Fresh ip) : arpCacheDel c ip = (c, false) := by
  have h₁ := h.dynamic_nonneg
  have h₂ := h.free
  obtain ⟨i, hi, hif, hip, -⟩ | ⟨i, hi, hif, hip, -⟩ | ⟨i, hi, hit, hip, -⟩ | ⟨-, heq⟩ :=
    arpCacheDel_spec c ip
  · exact absurd hip (hnew i (.inl ⟨by omega, hif⟩))
  · exact absurd hip (hnew i (.inl ⟨hi, by omega⟩))
  · exact absurd hip (hnew i (.inr ⟨hi, hit⟩))
  · exact heq

end Search

/-! ## Adding an entry -/

section Add

variable {e : Env} {ip : Dword} {eth : Mac}

theorem addPending_wellFormed (h : c.WellFormed) (hroom : c.firstFree < c.firstPending)
    (hnew : c.Fresh ip) : (addPending e c ip).WellFormed := by
  obtain ⟨h₁, h₂, h₃, h₄, hplaced, huniq⟩ := h
  have hlive : ∀ j, (addPending e c ip).Live j → j = c.firstPending - 1 ∨
      j ≠ c.firstPending - 1 ∧ c.Live j := by
    intro j hj
    unfold addPending ArpCache.Live at hj
    unfold ArpCache.Live
    dsimp only [upd_firstFree, upd_firstPending] at hj
    omega
  refine ⟨h₁, h₂, by dsimp [addPending]; omega, by dsimp [addPending]; omega, fun j hj => ?_, ?_⟩
  · rcases hlive j hj with rfl | ⟨hne, hj'⟩
    · constructor <;> dsimp [addPending, ArpCache.upd] <;> rw [Function.update_self] <;> simp
      all_goals omega
    · obtain ⟨hf, hd, hp⟩ := hplaced j hj'
      constructor <;> dsimp [addPending, ArpCache.upd] <;> rw [Function.update_of_ne hne]
      · exact hf
      · exact hd
      · intro h
        have := hp h
        omega
  · refine huniq.put (fun j hj hne => ?_) fun j hj => (hlive j hj).imp_right (·.2)
    exact hnew j hj

theorem addDynamic_wellFormed (h : c.WellFormed) (hroom : c.firstFree < c.firstPending)
    (hnew : c.Fresh ip) : (addDynamic e c ip eth).WellFormed := by
  obtain ⟨h₁, h₂, h₃, h₄, hplaced, huniq⟩ := h
  have hlive : ∀ j, (addDynamic e c ip eth).Live j → j = c.firstFree ∨
      j ≠ c.firstFree ∧ c.Live j := by
    intro j hj
    unfold addDynamic ArpCache.Live at hj
    unfold ArpCache.Live
    dsimp only [upd_firstFree, upd_firstPending] at hj
    omega
  refine ⟨h₁, by dsimp [addDynamic]; omega, by dsimp [addDynamic]; omega, h₄, fun j hj => ?_, ?_⟩
  · rcases hlive j hj with rfl | ⟨hne, hj'⟩
    · constructor <;> dsimp [addDynamic, ArpCache.upd] <;> rw [Function.update_self] <;> simp
      all_goals omega
    · obtain ⟨hf, hd, hp⟩ := hplaced j hj'
      constructor <;> dsimp [addDynamic, ArpCache.upd] <;> rw [Function.update_of_ne hne]
      · exact hf
      · rw [hd]
        omega
      · exact hp
  · refine huniq.put (fun j hj hne => ?_) fun j hj => (hlive j hj).imp_right (·.2)
    exact hnew j hj

theorem addFixed_wellFormed (h : c.WellFormed) (hroom : c.firstFree < c.firstPending)
    (hnew : c.Fresh ip) : (addFixed c ip eth).WellFormed := by
  obtain ⟨h₁, h₂, h₃, h₄, hplaced, huniq⟩ := h
  unfold addFixed
  dsimp only
  rw [move_into (by omega)]
  -- a live slot is the new one, the one the first dynamic entry moves to, or an old one
  have hlive : ∀ j, ArpCache.Live { c with firstFree := c.firstFree + 1 } j →
      j = c.firstDynamic ∨ j ≠ c.firstDynamic ∧ (j = c.firstFree ∨ j ≠ c.firstFree ∧ c.Live j) := by
    intro j hj
    unfold ArpCache.Live at hj ⊢
    dsimp only at hj
    omega
  refine ⟨by dsimp; omega, by dsimp; omega, by dsimp; omega, h₄, fun j hj => ?_, ?_⟩
  · rcases hlive j hj with rfl | ⟨hne, rfl | ⟨hne', hj'⟩⟩
    · constructor <;> dsimp [ArpCache.upd] <;> rw [Function.update_self] <;> simp
      all_goals omega
    · obtain ⟨hf, hd, hp⟩ := hplaced c.firstDynamic (.inl ⟨h₁, by omega⟩)
      constructor <;> dsimp [ArpCache.upd, ArpCache.moveEntry] <;>
        rw [Function.update_of_ne hne, move_apply, if_pos rfl]
      · rw [hf]
        omega
      · rw [hd]
        omega
      · intro h
        have := hp h
        omega
    · obtain ⟨hf, hd, hp⟩ := hplaced j hj'
      constructor <;> dsimp [ArpCache.upd, ArpCache.moveEntry] <;>
        rw [Function.update_of_ne hne, move_apply, if_neg hne']
      · rw [hf]
        omega
      · rw [hd]
        omega
      · exact hp
  · have hmove : Distinct ArpEntry.ip (fun j => j ≠ c.firstDynamic ∧
        (j = c.firstFree ∨ j ≠ c.firstFree ∧ c.Live j))
        (move c.list c.firstFree c.firstDynamic) := by
      rcases lt_or_eq_of_le h₂ with hlt | heq
      · exact huniq.move (.inl ⟨h₁, hlt⟩) fun j hj hne => ⟨(hj.2.resolve_left hne).2, hj.1⟩
      · rw [← heq, move_self]
        exact huniq.mono fun j hj => (hj.2.resolve_left hj.1).2
    refine hmove.put (fun j hj hne => ?_) hlive
    dsimp only [ArpCache.moveEntry]
    rw [move_apply]
    split_ifs with hjf
    · exact hnew _ (.inl ⟨h₁, by omega⟩)
    · exact hnew j (hj.2.resolve_left hjf).2

theorem arpCacheAdd_wellFormed (h : c.WellFormed) {expires : Bool} :
    (arpCacheAdd e c ip eth expires).1.WellFormed := by
  obtain ⟨σ, d, hr, hd⟩ := arpCacheDel_rearranged h ip
  have hw := hr.wellFormed h
  have hnew := hr.fresh h hd
  unfold arpCacheAdd
  dsimp only
  split_ifs with hlan hexp hfull hfull hnone
  · exact h
  · exact hw
  · exact addDynamic_wellFormed hw (not_le.mp hfull) hnew
  · exact hw
  · have hpop := popDynamic_rearranged hw (not_le.mp hnone)
    have h₃ := hw.pending
    refine addFixed_wellFormed (hpop.wellFormed hw) (by dsimp only; omega) fun j hj => ?_
    exact (hpop.same j hj).ip ▸ hnew j (hpop.live hw hj)
  · exact addFixed_wellFormed hw (not_le.mp hfull) hnew

theorem lanStartLookup_wellFormed (h : c.WellFormed) : (lanStartLookup e c ip).1.WellFormed := by
  unfold lanStartLookup
  split_ifs with hpend hdyn hfix hroom hpop
  · exact h
  · exact h
  · exact h
  all_goals
    rw [Bool.not_eq_true, search_isSome] at hpend hdyn hfix
    have hnew : c.Fresh ip := by
      rintro j (⟨hj, hjf⟩ | ⟨hj, hjt⟩)
      · rcases lt_or_ge j c.firstDynamic with hd | hd
        · exact hfix j hj hd
        · exact hdyn j hd hjf
      · exact hpend j hj hjt
  · exact addPending_wellFormed h hroom hnew
  · have hr := popDynamic_rearranged h hpop
    have h₃ := h.pending
    refine addPending_wellFormed (hr.wellFormed h) (by dsimp only; omega) fun j hj => ?_
    exact (hr.same j hj).ip ▸ hnew j (hr.live h hj)
  · exact h

end Add

/-! ## Timeouts -/

section Timeouts

variable {e : Env}

theorem ArpCache.WellFormed.upd (h : c.WellFormed) (hf : ∀ ae, (f ae).Same ae) :
    (c.upd i f).WellFormed :=
  ((Rearranged.refl h).upd hf).wellFormed h

/-- What is released is overwritten. -/
theorem release_moveEntry {s : ℤ} (h : s ≠ i) : (c.release i).moveEntry i s = c.moveEntry i s := by
  unfold ArpCache.moveEntry ArpCache.release ArpCache.upd move
  dsimp only
  rw [Function.update_of_ne h, Function.update_idem]

theorem checkPending_wellFormed (h : c.WellFormed) (hi : c.firstPending ≤ i) :
    (checkPending e c i).WellFormed := by
  induction c, i using checkPending.induct e with
  | case1 c i hit hexp hlt ih =>
    unfold checkPending
    rw [if_pos hit, if_pos hexp, if_pos hlt]
    refine ih ?_ (by dsimp [ArpCache.release]; omega)
    rw [release_moveEntry hlt.ne]
    have := (takePending_rearranged h hi hit).wellFormed h
    unfold takePending at this
    rwa [if_pos hlt] at this
  | case2 c i hit hexp hlt ih =>
    unfold checkPending
    rw [if_pos hit, if_pos hexp, if_neg hlt]
    exact ih ((popPending_rearranged h (by omega)).wellFormed h) (by dsimp only; omega)
  | case3 c i hit hexp hre ih =>
    unfold checkPending
    rw [if_pos hit, if_neg hexp, if_pos hre]
    exact ih (h.upd fun _ => ⟨rfl, rfl, rfl, rfl, id⟩) (by dsimp; omega)
  | case4 c i hit hexp hre ih =>
    unfold checkPending
    rw [if_pos hit, if_neg hexp, if_neg hre]
    exact ih h (by omega)
  | case5 c i hit =>
    unfold checkPending
    rwa [if_neg hit]

theorem checkDynamic_wellFormed (h : c.WellFormed) (hi : c.firstDynamic ≤ i) :
    (checkDynamic e c i).WellFormed := by
  induction c, i using checkDynamic.induct e with
  | case1 c i hif hexp c' hlt ih =>
    unfold checkDynamic
    rw [if_pos hif, if_pos hexp]
    dsimp only
    rw [if_pos hlt]
    refine ih ?_ hi
    rw [release_moveEntry hlt.ne']
    exact (fillDynamic_rearranged h hi hif).wellFormed h
  | case2 c i hif hexp c' hlt ih =>
    unfold checkDynamic
    rw [if_pos hif, if_pos hexp]
    dsimp only
    rw [if_neg hlt]
    exact ih ((popDynamic_rearranged h (by omega)).wellFormed h) (by dsimp [c']; omega)
  | case3 c i hif hexp ih =>
    unfold checkDynamic
    rw [if_pos hif, if_neg hexp]
    exact ih h (by omega)
  | case4 c i hif =>
    unfold checkDynamic
    rwa [if_neg hif]

theorem arpCheckTimeouts_wellFormed (h : c.WellFormed) {checkDynamicEntries : Bool} :
    (arpCheckTimeouts e c checkDynamicEntries).WellFormed := by
  have hp := checkPending_wellFormed (e := e) h le_rfl
  unfold arpCheckTimeouts
  dsimp only
  split_ifs
  · exact checkDynamic_wellFormed hp le_rfl
  · exact hp

end Timeouts

/-! ## Packets and runs -/

section Packets

variable {e : Env} {ah : ArpPacket}

theorem resolvePending_wellFormed (h : c.WellFormed) (hi : c.firstPending ≤ i)
    (hit : i < arpTopOfCache) : (resolvePending e c ah i).WellFormed := by
  have hr := takePending_rearranged h hi hit
  refine arpCacheAdd_wellFormed ((hr.upd fun ae => ?_).wellFormed h)
  exact ⟨rfl, rfl, rfl, rfl, fun hp => by cases hp⟩

/-- What a packet can do to the cache. -/
theorem arpHandler_cases (e : Env) (c : ArpCache) (ah : ArpPacket) :
    (arpHandler e c ah).1 = c ∨
    (∃ i, ah.opcode = arpReply ∧ c.search ah.srcIpAddr c.firstPending arpTopOfCache = some i ∧
      (arpHandler e c ah).1 = resolvePending e c ah i) ∨
    (∃ i, c.search ah.srcIpAddr c.firstDynamic c.firstFree = some i ∧
      (arpHandler e c ah).1 = refreshDynamic e c ah i) ∨
    (headerOk e ah = true ∧ doReply e ah = true ∧
      c.search ah.srcIpAddr c.firstDynamic c.firstFree = none ∧
      (arpHandler e c ah).1 = (arpCacheAdd e c ah.srcIpAddr ah.srcEthAddr true).1) := by
  unfold arpHandler
  by_cases hok : headerOk e ah = false
  · rw [if_pos hok]
    exact .inl rfl
  rw [if_neg hok]
  cases hpend : (if ah.opcode = arpReply then
      c.search ah.srcIpAddr c.firstPending arpTopOfCache else none) with
  | some i =>
    have := Option.ite_none_right_eq_some.mp hpend
    exact .inr (.inl ⟨i, this.1, this.2, rfl⟩)
  | none =>
    by_cases hop : ah.opcode ≠ arpRequest ∧ ah.opcode ≠ arpReply
    · rw [if_pos hop]
      exact .inl rfl
    rw [if_neg hop]
    cases hdyn : c.search ah.srcIpAddr c.firstDynamic c.firstFree with
    | some i => exact .inr (.inr (.inl ⟨i, rfl, rfl⟩))
    | none =>
      by_cases hreply : doReply e ah = true
      · rw [if_pos hreply]
        exact .inr (.inr (.inr ⟨Bool.not_eq_false _ ▸ hok, hreply, rfl, rfl⟩))
      · rw [if_neg hreply]
        exact .inl rfl

theorem arpHandler_wellFormed (h : c.WellFormed) : (arpHandler e c ah).1.WellFormed := by
  obtain heq | ⟨i, -, hi, heq⟩ | ⟨i, -, heq⟩ | ⟨-, -, -, heq⟩ := arpHandler_cases e c ah <;> rw [heq]
  · exact h
  · obtain ⟨hi, hit, -⟩ := search_eq_some hi
    exact resolvePending_wellFormed h hi hit
  · exact h.upd fun _ => ⟨rfl, rfl, rfl, rfl, id⟩
  · exact arpCacheAdd_wellFormed h

end Packets

theorem empty_wellFormed : ArpCache.empty.WellFormed := by
  refine ⟨le_rfl, le_rfl, by decide, le_rfl, fun i hi => ?_, fun i _ hi => ?_⟩ <;>
  · unfold ArpCache.Live ArpCache.empty at hi
    dsimp only at hi
    omega

theorem stepArp_wellFormed (h : c.WellFormed) (ev : ArpEvent) : (stepArp c ev).WellFormed := by
  unfold stepArp
  cases ev.op with
  | startLookup ip => exact lanStartLookup_wellFormed h
  | add ip eth expires => exact arpCacheAdd_wellFormed h
  | del ip =>
    obtain ⟨σ, d, hr, -⟩ := arpCacheDel_rearranged h ip
    exact hr.wellFormed h
  | packet ah => exact arpHandler_wellFormed h
  | timeouts checkDynamicEntries => exact arpCheckTimeouts_wellFormed h

theorem run_wellFormed (evs : List ArpEvent) : (run stepArp .empty evs).WellFormed := by
  induction evs using List.reverseRecOn with
  | nil => exact empty_wellFormed
  | append_singleton evs ev ih =>
    rw [run_append]
    exact stepArp_wellFormed ih ev

/-- **The structure of the ARP cache**: after every run the sections lie in order within the table,
every live entry is of the kind of its section, and no address is live twice. -/
theorem arp_cache_wellFormed (evs : List ArpEvent) :
    let c := run stepArp .empty evs
    (0 ≤ c.firstDynamic ∧ c.firstDynamic ≤ c.firstFree ∧ c.firstFree ≤ c.firstPending ∧
      c.firstPending ≤ arpTopOfCache) ∧
    (∀ i, c.Live i → c.Placed i) ∧
    ∀ i j, c.Live i → c.Live j → (c.list i).ip = (c.list j).ip → i = j := by
  have h := run_wellFormed evs
  exact ⟨⟨h.dynamic_nonneg, h.free, h.pending, h.top⟩, h.placed, h.unique⟩

end Watt32.Arp
