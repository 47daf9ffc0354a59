import Watt32.Arp.Routes

/-!
# Independence of cached routes

Whether the gateway a host is reached through is the one the gateway table gives for it.

* `RouteEntry.Chosen e gates re`: the entry holds the first usable gateway for its host or, once it
  has moved on, a later one, with the mask of the first.
* `RouteCache.Sound e gates r`: all live entries are so, in a run from empty caches.
* **`route_independent_iff`**: the cached gateway for a host is the selected one exactly if the entry
  found is the host's own, or one that has not moved on and whose host selects the same gateway.
-/

namespace Watt32.Arp

open Slots Machine

/-! ## Entries -/

/-- The entry comes from the selection for its host. -/
def RouteEntry.Chosen (e : Env) (gates : List GateEntry) (re : RouteEntry) : Prop :=
  ∃ l₁ gw l₂, gates = l₁ ++ gw :: l₂ ∧ (∀ g ∈ l₁, usable e re.hostIp g = false) ∧
    usable e re.hostIp gw = true ∧ re.mask = gw.mask ∧
    if re.movedOn then ∃ g ∈ l₂, g.gateIp = re.gateIp else re.gateIp = gw.gateIp

section Entries

variable {e : Env} {gates : List GateEntry} {re re' : RouteEntry} {ip last : Dword}

theorem selectGateway_eq_some {gw : GateEntry} :
    selectGateway e gates ip = some gw ↔ usable e ip gw = true ∧
      ∃ l₁ l₂, gates = l₁ ++ gw :: l₂ ∧ ∀ g ∈ l₁, usable e ip g = false := by
  unfold selectGateway
  rw [List.find?_eq_some_iff_append]
  simp only [Bool.not_eq_true']

/-- Flags are not looked at. -/
theorem RouteEntry.Chosen.congr (h : re.Chosen e gates) (hhost : re'.hostIp = re.hostIp)
    (hgate : re'.gateIp = re.gateIp) (hmask : re'.mask = re.mask)
    (hmoved : re'.movedOn = re.movedOn) : re'.Chosen e gates := by
  unfold RouteEntry.Chosen at *
  rwa [hhost, hgate, hmask, hmoved]

theorem chosen_of_select {gw : GateEntry} (h : selectGateway e gates ip = some gw)
    (hhost : re.hostIp = ip) (hgate : re.gateIp = gw.gateIp) (hmask : re.mask = gw.mask)
    (hmoved : re.movedOn = false) : re.Chosen e gates := by
  obtain ⟨hgw, l₁, l₂, hl, hl₁⟩ := selectGateway_eq_some.mp h
  refine ⟨l₁, gw, l₂, hl, hhost ▸ hl₁, hhost ▸ hgw, hmask, ?_⟩
  rwa [hmoved, if_neg (by decide)]

/-- The rest of the table behind a gateway. -/
theorem tail_dropWhile {l₁ l₂ : List GateEntry} {gw : GateEntry}
    (hnd : ((l₁ ++ gw :: l₂).map GateEntry.gateIp).Nodup) :
    ((l₁ ++ gw :: l₂).dropWhile (·.gateIp ≠ gw.gateIp)).tail = l₂ := by
  induction l₁ with
  | nil => simp
  | cons g l₁ ih =>
    rw [List.cons_append, List.map_cons, List.nodup_cons] at hnd
    have hne : g.gateIp ≠ gw.gateIp := fun h => hnd.1 (h ▸ List.mem_map_of_mem (by simp))
    rw [List.cons_append, List.dropWhile_cons, if_pos (decide_eq_true hne)]
    exact ih hnd.2

/-- The next gateway lies behind the last one. -/
theorem nextGateway_mem {l₁ l₂ : List GateEntry} {gw gw' : GateEntry}
    (hnd : ((l₁ ++ gw :: l₂).map GateEntry.gateIp).Nodup)
    (h : nextGateway e (l₁ ++ gw :: l₂) gw.gateIp ip = some gw') : gw' ∈ l₂ := by
  unfold nextGateway at h
  rw [if_pos (by simp), tail_dropWhile hnd] at h
  exact List.mem_of_find?_eq_some h

/-- Moving on keeps the entry behind its first gateway. -/
theorem RouteEntry.Chosen.moveOn (h : re.Chosen e gates) (hnd : (gates.map GateEntry.gateIp).Nodup)
    {gw' : GateEntry} (hnext : nextGateway e gates re.gateIp re.hostIp = some gw') :
    RouteEntry.Chosen e gates { re with gateIp := gw'.gateIp, movedOn := true } := by
  obtain ⟨l₁, gw, l₂, hl, hl₁, hgw, hmask, hgate⟩ := h
  refine ⟨l₁, gw, l₂, hl, hl₁, hgw, hmask, ?_⟩
  rw [hl] at hnd hnext
  rw [if_pos rfl]
  by_cases hmoved : re.movedOn
  · rw [if_pos hmoved] at hgate
    obtain ⟨g, hg, hge⟩ := hgate
    obtain ⟨m₁, m₂, rfl⟩ := List.append_of_mem hg
    have hsplit : l₁ ++ gw :: (m₁ ++ g :: m₂) = (l₁ ++ gw :: m₁) ++ g :: m₂ := by simp
    rw [hsplit] at hnd hnext
    rw [← hge] at hnext
    have := nextGateway_mem hnd hnext
    exact ⟨gw', by simp [this], rfl⟩
  · rw [if_neg hmoved] at hgate
    rw [hgate] at hnext
    exact ⟨gw', nextGateway_mem hnd hnext, rfl⟩

/-- An entry that has not moved on holds the gateway of its host. -/
theorem RouteEntry.Chosen.select (h : re.Chosen e gates) (hmoved : re.movedOn = false) :
    (selectGateway e gates re.hostIp).map GateEntry.gateIp = some re.gateIp := by
  obtain ⟨l₁, gw, l₂, hl, hl₁, hgw, -, hgate⟩ := h
  rw [hmoved, if_neg (by simp)] at hgate
  rw [selectGateway_eq_some.mpr ⟨hgw, l₁, l₂, hl, hl₁⟩, Option.map_some, hgate]

/-- An entry that has moved on holds no gateway that is selected for a host of its network. -/
theorem RouteEntry.Chosen.not_select (h : re.Chosen e gates)
    (hnd : (gates.map GateEntry.gateIp).Nodup) (hmoved : re.movedOn = true)
    (hnet : onSameNetwork ip re.hostIp re.mask = true) :
    (selectGateway e gates ip).map GateEntry.gateIp ≠ some re.gateIp := by
  obtain ⟨l₁, gw, l₂, hl, -, hgw, hmask, hgate⟩ := h
  rw [hmoved, if_pos rfl] at hgate
  obtain ⟨g, hg, hge⟩ := hgate
  -- the first gateway is usable for all of its network
  have husable : usable e ip gw = true := by
    have hnet := of_decide_eq_true hnet
    unfold usable at hgw ⊢
    have hgw := of_decide_eq_true hgw
    refine decide_eq_true ⟨hgw.1, ?_, hgw.2.2⟩
    rw [hmask, BitVec.and_comm ip, BitVec.and_comm re.hostIp] at hnet
    rw [hnet, hgw.2.1]
  intro hsel
  obtain ⟨g', hsel, hge'⟩ := Option.map_eq_some_iff.mp hsel
  unfold selectGateway at hsel
  rw [hl, List.find?_append, List.find?_cons_of_pos husable] at hsel
  have hg' : g' ∈ l₁ ++ [gw] := by
    rcases Option.or_eq_some_iff.mp hsel with hfind | ⟨-, hfind⟩
    · exact List.mem_append_left _ (List.mem_of_find?_eq_some hfind)
    · cases hfind
      simp
  rw [hl, List.append_cons, List.map_append, List.nodup_append] at hnd
  exact hnd.2.2 _ (List.mem_map_of_mem hg') _ (List.mem_map_of_mem hg) (hge'.trans hge.symm)

end Entries

/-! ## The cache -/

/-- The slots in use. -/
def RouteCache.Live (r : RouteCache) (i : ℤ) : Prop :=
  0 ≤ i ∧ i < r.firstFree ∨ r.firstPending ≤ i ∧ i < routeTopOfCache

/-- The live entries come from the selection for their hosts. -/
structure RouteCache.Sound (e : Env) (gates : List GateEntry) (r : RouteCache) : Prop where
  free : 0 ≤ r.firstFree
  pending : r.firstFree ≤ r.firstPending
  top : r.firstPending ≤ routeTopOfCache
  chosen : ∀ i, r.Live i → (r.list i).Chosen e gates

section Cache

variable {e : Env} {gates : List GateEntry} {r : RouteCache} {s : RouteState} {i : ℤ}
  {re : RouteEntry} {ip : Dword}

theorem empty_sound : RouteCache.empty.Sound e gates := by
  refine ⟨le_rfl, by decide, le_rfl, fun i hi => ?_⟩
  unfold RouteCache.Live RouteCache.empty at hi
  dsimp only at hi
  omega

theorem RouteCache.Sound.put (h : r.Sound e gates) (hre : re.Chosen e gates) :
    (r.put i re).Sound e gates := by
  refine ⟨h.free, h.pending, h.top, fun j hj => ?_⟩
  unfold RouteCache.put
  dsimp only
  rw [Function.update_apply]
  split_ifs
  · exact hre
  · exact h.chosen j hj

theorem RouteCache.Sound.moveEntry (h : r.Sound e gates) {d k : ℤ} (hk : r.Live k) :
    (r.moveEntry d k).Sound e gates := by
  refine ⟨h.free, h.pending, h.top, fun j hj => ?_⟩
  unfold RouteCache.moveEntry
  dsimp only
  rw [move_apply]
  split_ifs
  · exact h.chosen k hk
  · exact h.chosen j hj

theorem RouteCache.Sound.popDynamic (h : r.Sound e gates) (hpos : 0 < r.firstFree) :
    RouteCache.Sound e gates { r with firstFree := r.firstFree - 1 } := by
  refine ⟨by dsimp only; omega, by have := h.pending; dsimp only; omega, h.top, fun j hj => ?_⟩
  refine h.chosen j (hj.imp_left fun hj => ⟨hj.1, ?_⟩)
  have := hj.2
  dsimp only at this
  omega

theorem RouteCache.Sound.popPending (h : r.Sound e gates) (hpos : r.firstPending < routeTopOfCache) :
    RouteCache.Sound e gates { r with firstPending := r.firstPending + 1 } := by
  refine ⟨h.free, by have := h.pending; dsimp only; omega, by dsimp only; omega, fun j hj => ?_⟩
  refine h.chosen j (hj.imp_right fun hj => ⟨?_, hj.2⟩)
  have := hj.1
  dsimp only at this
  omega

theorem RouteCache.Sound.dropPending (h : r.Sound e gates) (hi : r.firstPending ≤ i)
    (hit : i < routeTopOfCache) : (r.dropPending i).1.Sound e gates := by
  unfold RouteCache.dropPending
  split_ifs with hlt
  · exact (h.moveEntry (.inr ⟨le_rfl, by omega⟩)).popPending (by dsimp [RouteCache.moveEntry]; omega)
  · exact h.popPending (by omega)

theorem dropPending_index (hi : r.firstPending ≤ i) :
    (r.dropPending i).1.firstPending = r.firstPending + 1 ∧
      (r.dropPending i).1.firstFree = r.firstFree ∧
      (r.dropPending i).1.firstPending ≤ (r.dropPending i).2 := by
  unfold RouteCache.dropPending
  split_ifs with hlt
  · exact ⟨rfl, rfl, hlt⟩
  · exact ⟨rfl, rfl, by dsimp only; omega⟩

/-- A new entry behind the dynamic ones. -/
theorem RouteCache.Sound.pushDynamic (h : r.Sound e gates) (hroom : r.firstFree < r.firstPending)
    (hre : re.Chosen e gates) :
    (RouteCache.put { r with firstFree := r.firstFree + 1 } r.firstFree re).Sound e gates := by
  have hfree := h.free
  refine ⟨by dsimp [RouteCache.put]; omega, by dsimp [RouteCache.put]; omega, h.top, fun j hj => ?_⟩
  unfold RouteCache.put
  dsimp only
  rw [Function.update_apply]
  split_ifs with hjf
  · exact hre
  · refine h.chosen j (hj.imp_left fun hj => ⟨hj.1, ?_⟩)
    have := hj.2
    dsimp only [RouteCache.put] at this
    omega

/-- A new entry before the pending ones. -/
theorem RouteCache.Sound.pushPending (h : r.Sound e gates) (hroom : r.firstFree < r.firstPending)
    (hre : re.Chosen e gates) :
    (RouteCache.put { r with firstPending := r.firstPending - 1 } (r.firstPending - 1) re).Sound e
      gates := by
  have htop := h.top
  refine ⟨h.free, by dsimp [RouteCache.put]; omega, by dsimp [RouteCache.put]; omega, fun j hj => ?_⟩
  unfold RouteCache.put
  dsimp only
  rw [Function.update_apply]
  split_ifs with hjf
  · exact hre
  · refine h.chosen j (hj.imp_right fun hj => ⟨?_, hj.2⟩)
    have := hj.1
    dsimp only [RouteCache.put] at this
    omega

/-! ## Operations -/

theorem routeMakeNewSlot_sound (h : r.Sound e gates) {gw : GateEntry}
    (hsel : selectGateway e gates ip = some gw) :
    (routeMakeNewSlot r ip gw.gateIp gw.mask).1.Sound e gates := by
  have hpend := h.pending
  unfold routeMakeNewSlot
  dsimp only
  split_ifs with hroom hpos hlast
  · exact h.pushPending hroom (chosen_of_select hsel rfl rfl rfl rfl)
  · have hmove := h.moveEntry (d := 0) (k := r.firstFree - 1) (.inl ⟨by omega, by omega⟩)
    exact (hmove.popDynamic hpos).pushPending (by dsimp [RouteCache.moveEntry]; omega)
      (chosen_of_select hsel rfl rfl rfl rfl)
  · exact (h.popDynamic hpos).pushPending (by dsimp only; omega)
      (chosen_of_select hsel rfl rfl rfl rfl)
  · exact h

theorem routeLookup_sound (h : s.routes.Sound e gates) :
    (routeLookup s ip).1.routes.Sound e gates := by
  unfold routeLookup
  cases hslot : routeSlot s.routes ip with
  | none => exact h
  | some i =>
    obtain ⟨hi, hif, -, -⟩ := find_eq_some hslot
    have hfree := h.free
    have hc := h.chosen i (.inl ⟨hi, by omega⟩)
    dsimp only
    cases lanLookup s.arp (s.routes.list i).gateIp with
    | none => exact h.put (hc.congr rfl rfl rfl rfl)
    | some eth => exact h.put (hc.congr rfl rfl rfl rfl)

theorem routeStartLookup_sound (h : s.routes.Sound e gates) {e' : Env}
    (hsel : selectGateway e' gates ip = selectGateway e gates ip) :
    (routeStartLookup e' gates s ip).1.routes.Sound e gates := by
  unfold routeStartLookup
  dsimp only
  split_ifs
  · exact h
  · exact h
  · cases hs : selectGateway e' gates ip with
    | none => exact h
    | some gw =>
      dsimp only
      split_ifs
      · exact h
      · exact routeMakeNewSlot_sound h (hsel ▸ hs)

/-- One turn of the loop over the pending entries. -/
theorem checkPendingRoute_sound (h : s.routes.Sound e gates)
    (hnd : (gates.map GateEntry.gateIp).Nodup) (hi : s.routes.firstPending ≤ i)
    (hit : i < routeTopOfCache) {e' : Env}
    (hnext : ∀ last host, nextGateway e' gates last host = nextGateway e gates last host) :
    (checkPendingRoute e' gates s i).1.routes.Sound e gates ∧
      (checkPendingRoute e' gates s i).1.routes.firstPending ≤ (checkPendingRoute e' gates s i).2 := by
  have hc := h.chosen i (.inr ⟨hi, hit⟩)
  have hpend := h.pending
  have hdrop := h.dropPending hi hit
  obtain ⟨h₁, h₂, h₃⟩ := dropPending_index hi
  unfold checkPendingRoute
  dsimp only
  split_ifs
  · exact ⟨hdrop.pushDynamic (by omega) (hc.congr rfl rfl rfl rfl), h₃⟩
  · exact ⟨h, by dsimp only; omega⟩
  · cases hn : nextGateway e' gates (s.routes.list i).gateIp (s.routes.list i).hostIp with
    | none => exact ⟨hdrop, h₃⟩
    | some gw =>
      dsimp only
      split_ifs
      · exact ⟨h.put (hc.moveOn hnd (hnext _ _ ▸ hn)), by dsimp [RouteCache.put]; omega⟩
      · exact ⟨hdrop, h₃⟩

theorem checkPendingRoutes_sound {e' : Env} (hnd : (gates.map GateEntry.gateIp).Nodup)
    (hnext : ∀ last host, nextGateway e' gates last host = nextGateway e gates last host)
    (h : s.routes.Sound e gates) (hi : s.routes.firstPending ≤ i) :
    (checkPendingRoutes e' gates s i).routes.Sound e gates := by
  induction s, i using checkPendingRoutes.induct e' gates with
  | case1 s i hit ih =>
    obtain ⟨h₁, h₂⟩ := checkPendingRoute_sound h hnd hi hit hnext
    unfold checkPendingRoutes
    rw [if_pos hit]
    exact ih h₁ h₂
  | case2 s i hit =>
    unfold checkPendingRoutes
    rwa [if_neg hit]

theorem checkDynamicRoutes_sound {c : ArpCache} (h : r.Sound e gates) (hi : 0 ≤ i) :
    (checkDynamicRoutes c r i).Sound e gates := by
  induction r, i using checkDynamicRoutes.induct c with
  | case1 r i hif hlan ih =>
    unfold checkDynamicRoutes
    rw [if_pos hif, if_pos hlan]
    exact ih h (by omega)
  | case2 r i hif hlan r' hlt r'' ih =>
    unfold checkDynamicRoutes
    rw [if_pos hif, if_neg hlan]
    dsimp only
    rw [if_pos hlt]
    have hmove : r''.Sound e gates :=
      (h.moveEntry (d := i) (k := r.firstFree - 1) (.inl ⟨by omega, by omega⟩)).popDynamic
        (by dsimp only [RouteCache.moveEntry]; omega)
    have hpend := h.pending
    refine ih ?_ hi
    split_ifs with hone
    · refine hmove.put ((hmove.chosen (i - 1) (.inl ⟨by omega, ?_⟩)).congr rfl rfl rfl rfl)
      dsimp only [r'', r', RouteCache.moveEntry] at hlt ⊢
      omega
    · exact hmove
  | case3 r i hif hlan r' hlt ih =>
    unfold checkDynamicRoutes
    rw [if_pos hif, if_neg hlan]
    dsimp only
    rw [if_neg hlt]
    exact ih (h.popDynamic (by omega)) (by omega)
  | case4 r i hif =>
    unfold checkDynamicRoutes
    rwa [if_neg hif]

theorem stepRoutes_sound (hnd : (gates.map GateEntry.gateIp).Nodup) (h : s.routes.Sound e gates)
    (ev : RouteEvent) : (stepRoutes e gates s ev).routes.Sound e gates := by
  unfold stepRoutes
  cases ev.op with
  | arp op => exact h
  | startLookup ip =>
    dsimp only [arpStartLookup]
    split_ifs
    · exact h
    · exact h
    · exact routeStartLookup_sound h rfl
  | lookup ip =>
    dsimp only [arpLookup]
    split_ifs
    · exact h
    · exact h
    · exact routeLookup_sound h
  | daemon checkDynamicEntries =>
    dsimp only [arpDaemon, routeCheckTimeouts]
    let e' := { e with now := ev.now, sent := ev.sent }
    let s' := { s with arp := arpCheckTimeouts e' s.arp checkDynamicEntries }
    have hp : (checkPendingRoutes e' gates s' s.routes.firstPending).routes.Sound e gates :=
      checkPendingRoutes_sound hnd (fun _ _ => rfl) h le_rfl
    split_ifs
    · exact checkDynamicRoutes_sound hp le_rfl
    · exact hp

theorem run_sound (hnd : (gates.map GateEntry.gateIp).Nodup) (evs : List RouteEvent) :
    (run (stepRoutes e gates) .empty evs).routes.Sound e gates := by
  induction evs using List.reverseRecOn with
  | nil => exact empty_sound
  | append_singleton evs ev ih =>
    rw [run_append]
    exact stepRoutes_sound hnd ih ev

end Cache

/-! ## The gateway used -/

/-- A live entry of the host has moved on to another gateway. -/
def FailedOver (r : RouteCache) (ip : Dword) : Prop :=
  ∃ i, r.Live i ∧ (r.list i).hostIp = ip ∧ (r.list i).movedOn = true

/-- The entry `re` stands for the host `ip`: it is its own, or it has not moved on and was made for
a host with the same gateway. -/
def StandsFor (e : Env) (gates : List GateEntry) (re : RouteEntry) (ip : Dword) : Prop :=
  re.hostIp = ip ∨ re.movedOn = false ∧
    (selectGateway e gates re.hostIp).map GateEntry.gateIp =
      (selectGateway e gates ip).map GateEntry.gateIp

theorem gatewayUsed_eq_some {s : RouteState} {ip g : Dword} :
    gatewayUsed s ip = some g ↔ ∃ i, routeSlot s.routes ip = some i ∧
      (lanLookup s.arp (s.routes.list i).gateIp).isSome = true ∧ (s.routes.list i).gateIp = g := by
  unfold gatewayUsed routeLookup
  cases hslot : routeSlot s.routes ip with
  | none => simp
  | some i =>
    cases hlan : lanLookup s.arp (s.routes.list i).gateIp with
    | none => simp [hlan]
    | some eth => simp [hlan]

/-- **The cached gateway is the selected one exactly if the entry found stands for the host**, in
every run with one gateway table and for every host that has not failed over. -/
theorem route_independent_iff
    (qsort : (GateEntry → GateEntry → ℤ) → List GateEntry → List GateEntry)
    (hq : Qsort.Contract qsort) (table : List GateOp) (e : Env) (evs : List RouteEvent) (ip : Dword)
    (hno : ¬ FailedOver (run (stepRoutes e (run (stepGates qsort) [] table)) .empty evs).routes ip) :
    let gates := run (stepGates qsort) [] table
    let s := run (stepRoutes e gates) .empty evs
    (∀ g, gatewayUsed s ip = some g →
        (selectGateway e gates ip).map GateEntry.gateIp = some g) ↔
      ∀ i, routeSlot s.routes ip = some i →
        (lanLookup s.arp (s.routes.list i).gateIp).isSome = true →
          StandsFor e gates (s.routes.list i) ip := by
  intro gates s
  have hnd := run_nodup (fun l => hq.perm compare l) table
  have h : s.routes.Sound e gates := run_sound hnd evs
  have hiff : ∀ i, routeSlot s.routes ip = some i →
      ((selectGateway e gates ip).map GateEntry.gateIp = some (s.routes.list i).gateIp ↔
        StandsFor e gates (s.routes.list i) ip) := by
    intro i hslot
    obtain ⟨hi, hif, hmatch, -⟩ := find_eq_some hslot
    have hlive : s.routes.Live i := .inl ⟨hi, by have := h.free; omega⟩
    have hc := h.chosen i hlive
    unfold StandsFor
    by_cases hhost : (s.routes.list i).hostIp = ip
    · have hmoved : (s.routes.list i).movedOn = false :=
        Bool.eq_false_iff.mpr fun hm => hno ⟨i, hlive, hhost, hm⟩
      exact iff_of_true (hhost ▸ hc.select hmoved) (.inl hhost)
    · have hnet := (of_decide_eq_true hmatch).resolve_left hhost
      rw [or_iff_right hhost]
      cases hmoved : (s.routes.list i).movedOn with
      | true => exact iff_of_false (hc.not_select hnd hmoved hnet) (by simp)
      | false =>
        rw [hc.select hmoved]
        exact ⟨fun hsel => ⟨rfl, hsel.symm⟩, fun hsel => hsel.2.symm⟩
  constructor
  · intro hall i hslot hlan
    exact (hiff i hslot).mp (hall _ (gatewayUsed_eq_some.mpr ⟨i, hslot, hlan, rfl⟩))
  · intro hall g hused
    obtain ⟨i, hslot, hlan, rfl⟩ := gatewayUsed_eq_some.mp hused
    exact (hiff i hslot).mpr (hall i hslot hlan)

/-! ## A default route that hides another -/

/-- The default route through `10.0.0.254` and `20.1.0.0/16` through `10.0.0.253`. -/
def defaultAndOther : List GateOp :=
  [.add (some "10.0.0.254".toList) 0, .add (some "10.0.0.253, 20.1.0.0, 255.255.0.0".toList) 0]

/-- The host `10.0.0.1/24`. -/
def lanEnv : Env := { myIpAddr := 0x0a000001, sinMask := 0xffffff00, ethAddr := 0x020000000001 }

/-- The answer of `10.0.0.254`. -/
def gatewayReply : ArpPacket where
  macDst := 0x020000000001
  opcode := arpReply
  srcEthAddr := 0x0200000000fe
  srcIpAddr := 0x0a0000fe
  dstEthAddr := 0x020000000001
  dstIpAddr := 0x0a000001

/-- `30.0.0.1` is looked up, its gateway answers and the entry becomes dynamic. -/
def resolved : List RouteEvent :=
  [⟨1, fun _ => true, .startLookup 0x1e000001⟩,
    ⟨2, fun _ => true, .arp (.packet gatewayReply)⟩,
    ⟨3, fun _ => true, .daemon false⟩]

theorem not_failedOver_resolved :
    ¬ FailedOver (run (stepRoutes lanEnv (run (stepGates Qsort.insertion) [] defaultAndOther))
      .empty resolved).routes 0x14010203 := by
  rintro ⟨i, hi, hhost, -⟩
  have h : i = 0 := by
    have hfree : (run (stepRoutes lanEnv (run (stepGates Qsort.insertion) [] defaultAndOther))
      .empty resolved).routes.firstFree = 1 := by decide +kernel
    have hpend : (run (stepRoutes lanEnv (run (stepGates Qsort.insertion) [] defaultAndOther))
      .empty resolved).routes.firstPending = routeTopOfCache := by decide +kernel
    unfold RouteCache.Live at hi
    rw [hfree, hpend] at hi
    omega
  subst h
  revert hhost
  decide +kernel

theorem route_independent_resolved :
    let gates := run (stepGates Qsort.insertion) [] defaultAndOther
    let s := run (stepRoutes lanEnv gates) .empty resolved
    (∀ g, gatewayUsed s 0x14010203 = some g →
        (selectGateway lanEnv gates 0x14010203).map GateEntry.gateIp = some g) ↔
      ∀ i, routeSlot s.routes 0x14010203 = some i →
        (lanLookup s.arp (s.routes.list i).gateIp).isSome = true →
          StandsFor lanEnv gates (s.routes.list i) 0x14010203 :=
  route_independent_iff Qsort.insertion Qsort.contract_insertion defaultAndOther lanEnv resolved
    0x14010203 not_failedOver_resolved

/-- The entry of `30.0.0.1` sends `20.1.2.3` to the default gateway. -/
theorem route_independent_fails :
    let gates := run (stepGates Qsort.insertion) [] defaultAndOther
    let s := run (stepRoutes lanEnv gates) .empty resolved
    ¬ (¬ FailedOver s.routes 0x14010203 → ∀ g, gatewayUsed s 0x14010203 = some g →
      (selectGateway lanEnv gates 0x14010203).map GateEntry.gateIp = some g) := by
  intro gates s h
  have hused : gatewayUsed s 0x14010203 = some 0x0a0000fe := by decide +kernel
  have hsel := h not_failedOver_resolved _ hused
  revert hsel
  decide +kernel

end Watt32.Arp
