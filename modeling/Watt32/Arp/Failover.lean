import Watt32.Arp.Turns
import Watt32.Lib.Run

/-!
# The choice of gateways

Which gateways `route_start_lookup` and the fail-over of `route_check_timeouts` put into the route
cache.

* `stepGated`: one step of the caches with the gateway table of that moment.
* `picks`: the gateways a step picks, each with its host.
* `stepGated_holds`: all else in the route cache was there before.
* **`gateways_usable_iff`**: all gateways picked are usable exactly if no fail-over comes upon a dead
  gateway first.
-/

namespace Watt32.Arp

open Machine Slots

/-- An operation with its surroundings and the gateway table. -/
structure GatedEvent where
  e : Env
  gates : List GateEntry
  op : RouteOp

/-- One step of the caches. -/
def stepGated (s : RouteState) (ev : GatedEvent) : RouteState :=
  stepRoutes ev.e ev.gates s ⟨ev.e.now, ev.e.sent, ev.op⟩

/-! ## Picks -/

/-- The gateway that `route_start_lookup` starts with. -/
def startPick (e : Env) (gates : List GateEntry) (s : RouteState) (ip : Dword) : Option GateEntry :=
  if (Slots.find (fun i => (s.routes.list i).hostIp = ip)
        (routeTopOfCache - s.routes.firstPending).toNat s.routes.firstPending).isSome ∨
      (Slots.find (fun i => (s.routes.list i).hostIp = ip) s.routes.firstFree.toNat 0).isSome then
    none
  else (selectGateway e gates ip).filter fun gw =>
    (lanStartLookup e s.arp gw.gateIp).2 ∧ gw.gateIp ≠ 0

/-- The state in which the daemon starts to check the routes. -/
def daemonStart (s : RouteState) (ev : GatedEvent) (checkDynamicEntries : Bool) : RouteState :=
  { s with arp := arpCheckTimeouts ev.e s.arp checkDynamicEntries }

/-- The turns of the daemon. -/
def daemonTurns (s : RouteState) (ev : GatedEvent) (checkDynamicEntries : Bool) :
    List (RouteState × ℤ) :=
  turns ev.e ev.gates (daemonStart s ev checkDynamicEntries) s.routes.firstPending

/-- The hosts for which a step picks a gateway. -/
def picks (s : RouteState) (ev : GatedEvent) : List (Dword × GateEntry) :=
  match ev.op with
  | .startLookup ip =>
    if ip4IsLocalAddr ev.e ip ∨ isOnLan ev.e ip then []
    else ((startPick ev.e ev.gates s ip).map (ip, ·)).toList
  | .daemon checkDynamicEntries =>
    (daemonTurns s ev checkDynamicEntries).filterMap fun t =>
      (failOver ev.e ev.gates t.1 t.2).map (turnHost t, ·)
  | _ => []

/-- The table behind the gateway tried last. -/
def behindLast (gates : List GateEntry) (last : Dword) : List GateEntry :=
  if gates.any (·.gateIp = last) then (gates.dropWhile (·.gateIp ≠ last)).tail else gates

/-- What the fail-over asks of a gateway. -/
def fits (e : Env) (host : Dword) (gw : GateEntry) : Bool :=
  isOnLan e gw.gateIp ∧ gw.mask &&& host = gw.subnet

/-- When the lookup of a gateway has failed, the first one behind it that fits is not dead, unless
the ARP cache has no room for it. -/
def AliveNext (s : RouteState) (ev : GatedEvent) : Prop :=
  match ev.op with
  | .daemon checkDynamicEntries =>
    ∀ t ∈ daemonTurns s ev checkDynamicEntries, Failed t.1 t.2 →
      ∀ l₁ gw l₂, behindLast ev.gates (t.1.routes.list t.2).gateIp = l₁ ++ gw :: l₂ →
        (∀ g ∈ l₁, fits ev.e (turnHost t) g = false) → fits ev.e (turnHost t) gw = true →
          (lanStartLookup ev.e t.1.arp gw.gateIp).2 = true → gw.isDead = false
  | _ => True

variable {e : Env} {gates : List GateEntry} {s : RouteState} {i : ℤ} {gw : GateEntry}
  {host gate ip : Dword}

theorem usable_eq : usable e host gw = true ↔ fits e host gw = true ∧ gw.isDead = false := by
  unfold usable fits
  simp only [decide_eq_true_eq, and_assoc]

/-- The gateway tried next is the first one that fits. -/
theorem nextTried_eq_some : nextTried e gates s i = some gw ↔
    (∃ l₁ l₂, behindLast gates (s.routes.list i).gateIp = l₁ ++ gw :: l₂ ∧
      ∀ g ∈ l₁, fits e (s.routes.list i).hostIp g = false) ∧
    fits e (s.routes.list i).hostIp gw = true ∧ (lanStartLookup e s.arp gw.gateIp).2 = true := by
  have hnext : nextGateway e gates (s.routes.list i).gateIp (s.routes.list i).hostIp =
      (behindLast gates (s.routes.list i).gateIp).find? (fits e (s.routes.list i).hostIp) := rfl
  unfold nextTried
  rw [hnext, Option.filter_eq_some_iff, List.find?_eq_some_iff_append]
  simp only [Bool.not_eq_true']
  tauto

/-- One fail-over. -/
theorem failOver_usable_iff : (∀ gw, failOver e gates s i = some gw →
      usable e (s.routes.list i).hostIp gw = true) ↔
    (Failed s i → ∀ l₁ gw l₂, behindLast gates (s.routes.list i).gateIp = l₁ ++ gw :: l₂ →
      (∀ g ∈ l₁, fits e (s.routes.list i).hostIp g = false) →
        fits e (s.routes.list i).hostIp gw = true →
          (lanStartLookup e s.arp gw.gateIp).2 = true → gw.isDead = false) := by
  simp only [failOver_eq_some, nextTried_eq_some, usable_eq]
  constructor
  · intro h hf l₁ gw l₂ hl hl₁ hfit hroom
    exact (h gw ⟨hf, ⟨l₁, l₂, hl, hl₁⟩, hfit, hroom⟩).2
  · rintro h gw ⟨hf, ⟨l₁, l₂, hl, hl₁⟩, hfit, hroom⟩
    exact ⟨hfit, h hf l₁ gw l₂ hl hl₁ hfit hroom⟩

/-- The first choice asks everything. -/
theorem startPick_usable (h : startPick e gates s ip = some gw) : usable e ip gw = true := by
  unfold startPick at h
  obtain ⟨hsel, -⟩ := Option.filter_eq_some_iff.mp (Option.ite_none_left_eq_some.mp h).2
  exact List.find?_some hsel

theorem picks_usable_iff (s : RouteState) (ev : GatedEvent) :
    (∀ p ∈ picks s ev, usable ev.e p.1 p.2 = true) ↔ AliveNext s ev := by
  unfold picks AliveNext
  cases ev.op with
  | arp op => exact iff_of_true nofun trivial
  | lookup ip => exact iff_of_true nofun trivial
  | startLookup ip =>
    refine iff_of_true (fun p hp => ?_) trivial
    dsimp only at hp
    split_ifs at hp
    · cases hp
    · obtain ⟨gw, hgw, rfl⟩ := Option.map_eq_some_iff.mp (Option.mem_toList.mp hp)
      exact startPick_usable hgw
  | daemon checkDynamicEntries =>
    dsimp only
    constructor
    · intro h t ht
      refine failOver_usable_iff.mp fun gw hgw => h (turnHost t, gw) ?_
      exact List.mem_filterMap.mpr ⟨t, ht, by rw [hgw]; rfl⟩
    · intro h p hp
      obtain ⟨t, ht, hmap⟩ := List.mem_filterMap.mp hp
      obtain ⟨gw, hgw, rfl⟩ := Option.map_eq_some_iff.mp hmap
      exact failOver_usable_iff.mpr (h t ht) gw hgw

/-! ## What a step puts into the cache -/

/-- What `route_start_lookup` does to the routes. -/
theorem routeStartLookup_cases (e : Env) (gates : List GateEntry) (s : RouteState) (ip : Dword) :
    (routeStartLookup e gates s ip).1.routes = s.routes ∨
    ∃ gw, startPick e gates s ip = some gw ∧ (∀ j, s.routes.Live j → (s.routes.list j).hostIp ≠ ip) ∧
      (routeStartLookup e gates s ip).1.routes =
        (routeMakeNewSlot s.routes ip gw.gateIp gw.mask).1 := by
  unfold routeStartLookup
  dsimp only
  split_ifs with hpend hdyn
  · exact .inl rfl
  · exact .inl rfl
  unfold startPick
  rw [if_neg (not_or.mpr ⟨hpend, hdyn⟩)]
  cases hsel : selectGateway e gates ip with
  | none => exact .inl rfl
  | some gw =>
    dsimp only
    split_ifs with hno
    · exact .inl rfl
    · refine .inr ⟨gw, Option.filter_some_pos (by simpa [not_or] using hno), ?_, rfl⟩
      rw [Option.not_isSome_iff_eq_none, find_eq_none] at hpend hdyn
      rintro j (⟨hj, hjf⟩ | ⟨hj, hjt⟩)
      · exact of_decide_eq_false (hdyn j hj (by omega))
      · exact of_decide_eq_false (hpend j hj (by omega))

theorem routeLookup_holds (hh : (routeLookup s ip).1.routes.Holds host gate) :
    s.routes.Holds host gate := by
  unfold routeLookup at hh
  cases hslot : routeSlot s.routes ip with
  | none =>
    rw [hslot] at hh
    exact hh
  | some i =>
    rw [hslot] at hh
    dsimp only at hh
    obtain ⟨hi, hif, -, -⟩ := find_eq_some hslot
    have hlive : s.routes.Live i := .inl ⟨hi, by omega⟩
    cases hlan : lanLookup s.arp (s.routes.list i).gateIp with
    | none =>
      rw [hlan] at hh
      obtain hh | ⟨rfl, rfl⟩ := put_holds hh
      · exact hh
      · exact ⟨i, hlive, rfl, rfl⟩
    | some eth =>
      rw [hlan] at hh
      obtain hh | ⟨rfl, rfl⟩ := put_holds hh
      · exact hh
      · exact ⟨i, hlive, rfl, rfl⟩

theorem stepGated_ordered (ho : s.routes.Ordered) (ev : GatedEvent) :
    (stepGated s ev).routes.Ordered := by
  unfold stepGated stepRoutes
  cases ev.op with
  | arp op => exact ho
  | lookup ip =>
    dsimp only [arpLookup]
    split_ifs
    · exact ho
    · exact ho
    · unfold routeLookup
      split
      · exact ho
      · dsimp only
        split <;> exact ⟨ho.free, ho.pending, ho.top⟩
  | startLookup ip =>
    dsimp only [arpStartLookup]
    split_ifs
    · exact ho
    · exact ho
    · obtain heq | ⟨gw, -, -, heq⟩ := routeStartLookup_cases ev.e ev.gates s ip <;> rw [heq]
      · exact ho
      · exact routeMakeNewSlot_ordered ho
  | daemon checkDynamicEntries =>
    have hp := (checkPendingRoutes_frame ev.e ev.gates
      (s := daemonStart s ev checkDynamicEntries) ho le_rfl).1
    dsimp only [arpDaemon, routeCheckTimeouts]
    split_ifs
    · exact (checkDynamicRoutes_frame hp le_rfl).1
    · exact hp

/-- **All routes that a step makes are picked**; the others were there before. -/
theorem stepGated_holds (ho : s.routes.Ordered) (ev : GatedEvent)
    (hh : (stepGated s ev).routes.Holds host gate) :
    s.routes.Holds host gate ∨ ∃ gw, (host, gw) ∈ picks s ev ∧ gw.gateIp = gate := by
  unfold stepGated stepRoutes at hh
  unfold picks
  cases hop : ev.op with
  | arp op =>
    rw [hop] at hh
    exact .inl hh
  | lookup ip =>
    rw [hop] at hh
    dsimp only [arpLookup] at hh
    split_ifs at hh
    · exact .inl hh
    · exact .inl hh
    · exact .inl (routeLookup_holds hh)
  | startLookup ip =>
    rw [hop] at hh
    dsimp only [arpStartLookup] at hh ⊢
    split_ifs at hh with hlocal hlan
    · exact .inl hh
    · exact .inl hh
    rw [if_neg (not_or.mpr ⟨hlocal, hlan⟩)]
    obtain heq | ⟨gw, hgw, -, heq⟩ := routeStartLookup_cases ev.e ev.gates s ip
    · exact .inl (heq ▸ hh)
    · refine (routeMakeNewSlot_holds ho (heq ▸ hh)).imp_right ?_
      rintro ⟨rfl, rfl⟩
      exact ⟨gw, by rw [hgw]; exact List.mem_singleton_self _, rfl⟩
  | daemon checkDynamicEntries =>
    rw [hop] at hh
    dsimp only [arpDaemon, routeCheckTimeouts] at hh ⊢
    have hpass : (checkPendingRoutes ev.e ev.gates (daemonStart s ev checkDynamicEntries)
        s.routes.firstPending).routes.Holds host gate := by
      have ho' := (checkPendingRoutes_frame ev.e ev.gates
        (s := daemonStart s ev checkDynamicEntries) ho le_rfl).1
      split_ifs at hh
      · exact (checkDynamicRoutes_frame ho' le_rfl).2.2.2 host gate hh
      · exact hh
    obtain hh | ⟨t, ht, gw, hgw, hhost, rfl⟩ := checkPendingRoutes_holds
      (s := daemonStart s ev checkDynamicEntries) ho le_rfl hpass
    · exact .inl hh
    · exact .inr ⟨gw, List.mem_filterMap.mpr ⟨t, ht, by rw [hgw, ← hhost]; rfl⟩, rfl⟩

/-! ## Runs -/

/-- **Every gateway picked is usable**, on the LAN, for the network of the host and not dead, in
every run with any gateway tables exactly if at each fail-over the next gateway of the table that
fits is not dead. -/
theorem gateways_usable_iff (s : RouteState) (evs : List GatedEvent) :
    Always stepGated (fun s ev => ∀ p ∈ picks s ev, usable ev.e p.1 p.2 = true) s evs ↔
      Always stepGated AliveNext s evs :=
  always_iff_of_invariant (I := fun _ => True) (fun _ _ _ _ => trivial)
    (fun s ev _ => picks_usable_iff s ev) evs trivial

/-- The default routes through `10.0.0.254` and through `10.0.0.253`, which is dead. -/
def secondDead : List GateEntry :=
  [{ gateIp := 0x0a0000fe, subnet := 0, mask := 0 },
    { gateIp := 0x0a0000fd, subnet := 0, mask := 0, isDead := true }]

/-- `20.0.0.1` is looked up and the first gateway does not answer. -/
def firstSilent : List GatedEvent :=
  let e : Env := { myIpAddr := 0x0a000001, sinMask := 0xffffff00, ethAddr := 0x020000000001 }
  [⟨e, secondDead, .startLookup 0x14000001⟩, ⟨{ e with now := 3000 }, secondDead, .daemon false⟩]

theorem gateway_dead : ¬ Always stepGated
    (fun s ev => ∀ p ∈ picks s ev, usable ev.e p.1 p.2 = true) .empty firstSilent := by
  rintro ⟨-, h, -⟩
  have hdead := h (0x14000001, { gateIp := 0x0a0000fd, subnet := 0, mask := 0, isDead := true })
    (by decide +kernel)
  revert hdead
  decide

end Watt32.Arp
