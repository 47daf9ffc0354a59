import Watt32.Arp.Failover

/-!
# The upkeep of the route cache

Which hosts `route_check_timeouts` takes out of the cache.

* `stepCalls`: the calls of `route_start_lookup`, `route_make_new_slot` and `route_check_timeouts`,
  with any change of the ARP cache in between.
* `AssumedAbsent`: `route_make_new_slot` is called for hosts that have no slot.
* `PassExact`: the routes behind a pass, by what its turns found.
* **`route_maintenance`**: the order of the index variables in every run and, when hosts are absent
  as assumed, no host twice and exact passes.
-/

namespace Watt32.Arp

open Machine Slots

/-! ## Calls -/

/-- A call, or a change of the ARP cache. -/
inductive RouteCall
  | arp (c : ArpCache)
  | startLookup (ip : Dword)
  | makeNewSlot (hostIp gateIp mask : Dword)
  | checkTimeouts (checkDynamicEntries : Bool)

/-- A call with its surroundings and the gateway table. -/
structure CallEvent where
  e : Env
  gates : List GateEntry
  call : RouteCall

/-- One call. -/
def stepCalls (s : RouteState) (ev : CallEvent) : RouteState :=
  match ev.call with
  | .arp c => { s with arp := c }
  | .startLookup ip => (routeStartLookup ev.e ev.gates s ip).1
  | .makeNewSlot hostIp gateIp mask =>
    { s with routes := (routeMakeNewSlot s.routes hostIp gateIp mask).1 }
  | .checkTimeouts checkDynamicEntries => routeCheckTimeouts ev.e ev.gates s checkDynamicEntries

/-- `host` has a live slot. -/
def RouteCache.HasRoute (r : RouteCache) (host : Dword) : Prop :=
  ∃ j, r.Live j ∧ (r.list j).hostIp = host

/-- The host of a new slot was checked for, as `route_make_new_slot` assumes. -/
def AssumedAbsent (s : RouteState) (ev : CallEvent) : Prop :=
  match ev.call with
  | .makeNewSlot hostIp _ _ => ¬ s.routes.HasRoute hostIp
  | _ => True

/-- What a pass of `route_check_timeouts` leaves: `t` runs over its turns. A route is removed exactly
if it is lost at a turn or, when the dynamic entries are checked, its gateway is not in the ARP
cache behind the turns. -/
structure PassExact (e : Env) (gates : List GateEntry) (s : RouteState)
    (checkDynamicEntries : Bool) : Prop where
  visited : ∀ host, s.routes.HasPending host →
    ∃ t ∈ turns e gates s s.routes.firstPending, turnHost t = host
  pending : ∀ host, (routeCheckTimeouts e gates s checkDynamicEntries).routes.HasPending host ↔
    s.routes.HasPending host ∧ ¬ ∃ t ∈ turns e gates s s.routes.firstPending,
      turnHost t = host ∧ (Resolved t.1 t.2 ∨ Lost e gates t.1 t.2)
  dynamic : ∀ host gate, (routeCheckTimeouts e gates s checkDynamicEntries).routes.Via host gate ↔
    (s.routes.Via host gate ∨ ∃ t ∈ turns e gates s s.routes.firstPending,
      Resolved t.1 t.2 ∧ turnHost t = host ∧ turnGate t = gate) ∧
    (checkDynamicEntries = true →
      (lanLookup (checkPendingRoutes e gates s s.routes.firstPending).arp gate).isSome = true)
  removed : ∀ host, s.routes.HasRoute host →
    (¬ (routeCheckTimeouts e gates s checkDynamicEntries).routes.HasRoute host ↔
      (∃ t ∈ turns e gates s s.routes.firstPending, turnHost t = host ∧ Lost e gates t.1 t.2) ∨
      checkDynamicEntries = true ∧ ∃ gate,
        (checkPendingRoutes e gates s s.routes.firstPending).routes.Via host gate ∧
        lanLookup (checkPendingRoutes e gates s s.routes.firstPending).arp gate = none)

variable {e : Env} {gates : List GateEntry} {s : RouteState} {r : RouteCache} {i : ℤ}
  {host gate ip : Dword}

/-! ## Hosts -/

theorem hasRoute_iff : r.HasRoute host ↔ (∃ gate, r.Via host gate) ∨ r.HasPending host := by
  constructor
  · rintro ⟨j, ⟨hj, hjf⟩ | ⟨hj, hjt⟩, rfl⟩
    · exact .inl ⟨_, j, hj, hjf, rfl, rfl⟩
    · exact .inr ⟨j, hj, hjt, rfl⟩
  · rintro (⟨gate, j, hj, hjf, rfl, -⟩ | ⟨j, hj, hjt, rfl⟩)
    · exact ⟨j, .inl ⟨hj, hjf⟩, rfl⟩
    · exact ⟨j, .inr ⟨hj, hjt⟩, rfl⟩

/-- A host is not resolved and pending. -/
theorem RouteCache.NoTwice.not_pending (hu : r.NoTwice) (ho : r.Ordered) (hv : r.Via host gate) :
    ¬ r.HasPending host := by
  rintro ⟨k, hk, hkt, hkhost⟩
  obtain ⟨j, hj, hjf, hjhost, -⟩ := hv
  have heq := hu j k (.inl ⟨hj, hjf⟩) (.inr ⟨hk, hkt⟩) (hjhost.trans hkhost.symm)
  have h₂ := ho.pending
  omega

/-- A host is resolved through one gateway. -/
theorem RouteCache.NoTwice.via_unique {gate' : Dword} (hu : r.NoTwice) (hv : r.Via host gate)
    (hv' : r.Via host gate') : gate = gate' := by
  obtain ⟨j, hj, hjf, hjhost, rfl⟩ := hv
  obtain ⟨k, hk, hkf, hkhost, rfl⟩ := hv'
  rw [hu j k (.inl ⟨hj, hjf⟩) (.inl ⟨hk, hkf⟩) (hjhost.trans hkhost.symm)]

/-- A turn is about a pending host, and no host is resolved at one turn and lost at another. -/
theorem turns_once (e : Env) (gates : List GateEntry) (ho : s.routes.Ordered)
    (hu : s.routes.NoTwice) (hi : s.routes.firstPending ≤ i) :
    (∀ t ∈ turns e gates s i, s.routes.HasPending (turnHost t)) ∧
    ∀ t ∈ turns e gates s i, ∀ t' ∈ turns e gates s i, turnHost t = turnHost t' →
      Resolved t.1 t.2 → ¬ Lost e gates t'.1 t'.2 := by
  refine checkPendingRoutes_rule e gates (P := fun s _ ts _ => s.routes.NoTwice →
    (∀ t ∈ ts, s.routes.HasPending (turnHost t)) ∧
    ∀ t ∈ ts, ∀ t' ∈ ts, turnHost t = turnHost t' →
      Resolved t.1 t.2 → ¬ Lost e gates t'.1 t'.2) ?_ ?_ ho hi hu
  · exact fun _ _ _ _ => ⟨nofun, nofun⟩
  intro s i ts r ho hi hit ih hu
  obtain ⟨hu', -, hpend⟩ := checkPendingRoute_spec e gates ho hu hi hit
  obtain ⟨ih₁, ih₂⟩ := ih hu'
  -- what is resolved or lost at this turn is not pending at a later one
  have hlater : ∀ t ∈ ts, turnHost t = (s.routes.list i).hostIp →
      ¬ (Resolved s i ∨ Lost e gates s i) := fun t ht hhost hout =>
    ((hpend _).mp (ih₁ t ht)).2 ⟨hout, hhost⟩
  refine ⟨fun t ht => ?_, fun t ht t' ht' hhost hres hlost => ?_⟩
  · rcases List.mem_cons.mp ht with rfl | ht
    · exact ⟨i, hi, hit, rfl⟩
    · exact ((hpend _).mp (ih₁ t ht)).1
  · rcases List.mem_cons.mp ht with rfl | ht <;> rcases List.mem_cons.mp ht' with rfl | ht'
    · have hnone := hlost.1.1
      rw [Resolved] at hres
      dsimp only at hnone hres
      rw [hnone] at hres
      cases hres
    · exact hlater t' ht' hhost.symm (.inl hres)
    · exact hlater t ht hhost (.inr hlost)
    · exact ih₂ t ht t' ht' hhost hres hlost

/-! ## A pass -/

theorem routeCheckTimeouts_frame (ho : s.routes.Ordered) (checkDynamicEntries : Bool) :
    (routeCheckTimeouts e gates s checkDynamicEntries).routes.Ordered := by
  have ho' := (checkPendingRoutes_frame e gates ho le_rfl).1
  unfold routeCheckTimeouts
  dsimp only
  split_ifs
  · exact (checkDynamicRoutes_frame ho' le_rfl).1
  · exact ho'

theorem routeCheckTimeouts_noTwice (ho : s.routes.Ordered) (hu : s.routes.NoTwice)
    (checkDynamicEntries : Bool) :
    (routeCheckTimeouts e gates s checkDynamicEntries).routes.NoTwice := by
  have ho' := (checkPendingRoutes_frame e gates ho le_rfl).1
  have hu' := (checkPendingRoutes_spec e gates ho hu le_rfl).1
  unfold routeCheckTimeouts
  dsimp only
  split_ifs
  · exact (checkDynamicRoutes_frame ho' le_rfl).2.1 hu'
  · exact hu'

variable (e gates) in
/-- The pending and the resolved routes behind a pass. -/
theorem routeCheckTimeouts_routes (ho : s.routes.Ordered) (checkDynamicEntries : Bool) :
    (∀ host, (routeCheckTimeouts e gates s checkDynamicEntries).routes.HasPending host ↔
      (checkPendingRoutes e gates s s.routes.firstPending).routes.HasPending host) ∧
    ∀ host gate, (routeCheckTimeouts e gates s checkDynamicEntries).routes.Via host gate ↔
      (checkPendingRoutes e gates s s.routes.firstPending).routes.Via host gate ∧
      (checkDynamicEntries = true →
        (lanLookup (checkPendingRoutes e gates s s.routes.firstPending).arp gate).isSome = true) := by
  have ho' := (checkPendingRoutes_frame e gates ho le_rfl).1
  unfold routeCheckTimeouts
  dsimp only
  split_ifs with hc
  · refine ⟨(checkDynamicRoutes_frame ho' le_rfl).2.2.1, fun host gate => ?_⟩
    rw [checkDynamicRoutes_via, forall_prop_of_true hc]
  · exact ⟨fun _ => Iff.rfl, fun _ _ => (and_iff_left fun h => absurd h hc).symm⟩

/-- **A pass is exact.** -/
theorem routeCheckTimeouts_exact (ho : s.routes.Ordered) (hu : s.routes.NoTwice)
    (checkDynamicEntries : Bool) : PassExact e gates s checkDynamicEntries := by
  have ho' := (checkPendingRoutes_frame e gates ho le_rfl).1
  obtain ⟨hu', hvia, hpend⟩ := checkPendingRoutes_spec e gates ho hu le_rfl
  obtain ⟨hpend', hvia'⟩ := routeCheckTimeouts_routes e gates ho checkDynamicEntries
  obtain ⟨hturn, honce⟩ := turns_once e gates ho hu le_rfl
  have hpendingIff := fun host => (hpend' host).trans (hpend host)
  have hdynamicIff := fun host gate => (hvia' host gate).trans (and_congr_left' (hvia host gate))
  refine ⟨?_, hpendingIff, hdynamicIff, fun host hhas => ?_⟩
  · rintro host ⟨j, hj, hjt, rfl⟩
    exact turns_host e gates ho le_rfl hj hjt
  rw [hasRoute_iff]
  constructor
  · intro hgone
    rw [not_or, not_exists] at hgone
    obtain ⟨hnoVia, hnoPend⟩ := hgone
    -- a route that is resolved behind the turns has lost its gateway
    have hexpired : ∀ gate, (checkPendingRoutes e gates s s.routes.firstPending).routes.Via host gate →
        checkDynamicEntries = true ∧ ∃ gate,
          (checkPendingRoutes e gates s s.routes.firstPending).routes.Via host gate ∧
          lanLookup (checkPendingRoutes e gates s s.routes.firstPending).arp gate = none := by
      intro gate hv
      have hno := hnoVia gate
      rw [hvia', not_and, Classical.not_imp, Option.not_isSome_iff_eq_none] at hno
      exact ⟨(hno hv).1, gate, hv, (hno hv).2⟩
    rcases hasRoute_iff.mp hhas with ⟨gate, hv⟩ | hp
    · exact .inr (hexpired gate ((hvia host gate).mpr (.inl hv)))
    · rw [hpendingIff, not_and_not_right] at hnoPend
      obtain ⟨t, ht, hhost, hres | hlost⟩ := hnoPend hp
      · exact .inr (hexpired _ ((hvia host _).mpr (.inr ⟨t, ht, hres, hhost, rfl⟩)))
      · exact .inl ⟨t, ht, hhost, hlost⟩
  · rintro (⟨t, ht, hhost, hlost⟩ | ⟨hc, gate, hv, hnone⟩) (⟨gate', hv'⟩ | hp)
    · rcases ((hdynamicIff host gate').mp hv').1 with hv | ⟨t', ht', hres, hhost', -⟩
      · exact hu.not_pending ho hv (hhost ▸ hturn t ht)
      · exact honce t' ht' t ht (hhost'.trans hhost.symm) hres hlost
    · exact ((hpendingIff host).mp hp).2 ⟨t, ht, hhost, .inr hlost⟩
    · obtain ⟨hv', hsome⟩ := (hvia' host gate').mp hv'
      rw [hu'.via_unique hv' hv] at hsome
      rw [hnone] at hsome
      exact absurd (hsome hc) (by decide)
    · exact hu'.not_pending ho' hv ((hpend' host).mp hp)

/-! ## Runs -/

theorem stepCalls_ordered (ho : s.routes.Ordered) (ev : CallEvent) :
    (stepCalls s ev).routes.Ordered := by
  unfold stepCalls
  cases ev.call with
  | arp c => exact ho
  | startLookup ip =>
    obtain heq | ⟨gw, -, -, heq⟩ := routeStartLookup_cases ev.e ev.gates s ip <;> dsimp only <;>
      rw [heq]
    · exact ho
    · exact routeMakeNewSlot_ordered ho
  | makeNewSlot hostIp gateIp mask => exact routeMakeNewSlot_ordered ho
  | checkTimeouts checkDynamicEntries => exact routeCheckTimeouts_frame ho checkDynamicEntries

theorem stepCalls_noTwice (ho : s.routes.Ordered) (hu : s.routes.NoTwice) (ev : CallEvent)
    (hno : AssumedAbsent s ev) : (stepCalls s ev).routes.NoTwice := by
  unfold stepCalls
  unfold AssumedAbsent at hno
  cases hcall : ev.call with
  | arp c => exact hu
  | startLookup ip =>
    obtain heq | ⟨gw, -, hnew, heq⟩ := routeStartLookup_cases ev.e ev.gates s ip <;> dsimp only <;>
      rw [heq]
    · exact hu
    · exact routeMakeNewSlot_noTwice ho hu hnew
  | makeNewSlot hostIp gateIp mask =>
    rw [hcall] at hno
    exact routeMakeNewSlot_noTwice ho hu fun j hj hhost => hno ⟨j, hj, hhost⟩
  | checkTimeouts checkDynamicEntries => exact routeCheckTimeouts_noTwice ho hu checkDynamicEntries

theorem empty_ordered : RouteCache.empty.Ordered := ⟨le_rfl, by decide, le_rfl⟩

theorem empty_noTwice : RouteCache.empty.NoTwice := by
  intro i j hi
  unfold RouteCache.Live RouteCache.empty at hi
  dsimp only at hi
  omega

/-- **The upkeep of the route cache**: the index variables keep their order in every run; in every
run whose new slots are for absent hosts no host occupies two live slots, and a pass of
`route_check_timeouts` from the state reached is exact. -/
theorem route_maintenance (evs : List CallEvent) :
    (0 ≤ (run stepCalls .empty evs).routes.firstFree ∧
      (run stepCalls .empty evs).routes.firstFree ≤
        (run stepCalls .empty evs).routes.firstPending ∧
      (run stepCalls .empty evs).routes.firstPending ≤ routeTopOfCache) ∧
    (Always stepCalls AssumedAbsent .empty evs →
      (∀ i j, (run stepCalls .empty evs).routes.Live i → (run stepCalls .empty evs).routes.Live j →
        ((run stepCalls .empty evs).routes.list i).hostIp =
          ((run stepCalls .empty evs).routes.list j).hostIp → i = j) ∧
      ∀ e gates checkDynamicEntries,
        PassExact e gates (run stepCalls .empty evs) checkDynamicEntries) := by
  have ho : (run stepCalls .empty evs).routes.Ordered :=
    run_invariant (I := fun s : RouteState => s.routes.Ordered) (fun s ev ho _ => stepCalls_ordered ho ev) evs
      empty_ordered (always_true evs)
  refine ⟨⟨ho.free, ho.pending, ho.top⟩, fun habs => ?_⟩
  have hu := (run_invariant (I := fun s : RouteState => s.routes.Ordered ∧ s.routes.NoTwice)
    (fun s ev h hno => ⟨stepCalls_ordered h.1 ev, stepCalls_noTwice h.1 h.2 ev hno⟩) evs
    ⟨empty_ordered, empty_noTwice⟩ habs).2
  exact ⟨hu, fun e gates checkDynamicEntries => routeCheckTimeouts_exact ho hu checkDynamicEntries⟩

/-! ## What the pass does not promise -/

/-- The host `10.0.0.1/24`. -/
def upkeepEnv : Env := { myIpAddr := 0x0a000001, sinMask := 0xffffff00, ethAddr := 0x020000000001 }

/-- Two default routes. -/
def twoDefaults : List GateEntry :=
  [{ gateIp := 0x0a0000fe, subnet := 0, mask := 0 }, { gateIp := 0x0a0000fd, subnet := 0, mask := 0 }]

/-- `route_make_new_slot` twice for `20.0.0.1`. -/
def madeTwice : List CallEvent :=
  [⟨upkeepEnv, twoDefaults, .makeNewSlot 0x14000001 0x0a0000fe 0⟩,
    ⟨upkeepEnv, twoDefaults, .makeNewSlot 0x14000001 0x0a0000fd 0⟩]

/-- An ARP cache full of fixed entries. -/
def allFixed : ArpCache where
  list i := { ip := BitVec.ofInt 32 i, flags := { inuse := true, fixed := true } }
  firstPending := arpTopOfCache
  firstFree := arpTopOfCache
  firstDynamic := arpTopOfCache

/-- `20.0.0.1` is looked up; its gateway does not answer while the ARP cache fills. -/
def noRoom : List CallEvent :=
  [⟨upkeepEnv, twoDefaults, .startLookup 0x14000001⟩, ⟨upkeepEnv, twoDefaults, .arp allFixed⟩]

theorem route_maintenance_fails :
    (∃ i j, (run stepCalls .empty madeTwice).routes.Live i ∧
      (run stepCalls .empty madeTwice).routes.Live j ∧
      ((run stepCalls .empty madeTwice).routes.list i).hostIp =
        ((run stepCalls .empty madeTwice).routes.list j).hostIp ∧ i ≠ j) ∧
    -- the second gateway has not been tried
    ((run stepCalls .empty noRoom).routes.HasPending 0x14000001 ∧
      (nextGateway upkeepEnv twoDefaults 0x0a0000fe 0x14000001).isSome = true ∧
      ¬ (routeCheckTimeouts upkeepEnv twoDefaults (run stepCalls .empty noRoom) false).routes.HasRoute
        0x14000001) := by
  refine ⟨⟨30, 31, .inr ⟨by decide, by decide⟩, .inr ⟨by decide, by decide⟩, by decide, by decide⟩,
    ⟨31, by decide, by decide, by decide⟩, by decide, ?_⟩
  rintro ⟨j, hj, -⟩
  have hfree : (routeCheckTimeouts upkeepEnv twoDefaults (run stepCalls .empty noRoom)
    false).routes.firstFree = 0 := by decide +kernel
  have hpend : (routeCheckTimeouts upkeepEnv twoDefaults (run stepCalls .empty noRoom)
    false).routes.firstPending = routeTopOfCache := by decide +kernel
  unfold RouteCache.Live at hj
  rw [hfree, hpend] at hj
  omega

end Watt32.Arp
