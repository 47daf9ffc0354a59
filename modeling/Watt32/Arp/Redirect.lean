import Watt32.Arp.Failover

/-!
# Redirects

`_arp_register`, which an ICMP redirect calls.

* `arpRegister`, `stepRedirect`: the function, and one step of the caches with redirects.
* `RouteCache.Sane`: hosts off the LAN, gateways on it.
* `Honoured`: once the gateway is resolved, the host is reached through it.
* **`redirects_iff`**: redirects are honoured and the cache stays sane exactly if every redirect that
  takes effect names a gateway that is resolved already, and no other entry stands for the host.
-/

namespace Watt32.Arp

open Machine Slots

/-- The loop of `_arp_register` over the dynamic entries. -/
def hostSlot (r : RouteCache) (host : Dword) : Option ℤ :=
  Slots.find (fun i => (r.list i).hostIp = host) r.firstFree.toNat 0

/-- Kill the dynamic entry `i`: the top one fills the hole. -/
def RouteCache.killDynamic (r : RouteCache) (i : ℤ) : RouteCache :=
  let r := { r with firstFree := r.firstFree - 1 }
  if i < r.firstFree then r.moveEntry i r.firstFree else r

/-- `_arp_register`. -/
def arpRegister (e : Env) (s : RouteState) (useThisGatewayIp forThisHostIp : Dword) :
    RouteState × Bool :=
  if isOnLan e useThisGatewayIp = false ∨ isOnLan e forThisHostIp then (s, false)
  else
    match hostSlot s.routes forThisHostIp with
    | none => (s, false)
    | some i =>
      let re := s.routes.list i
      if re.gateIp = useThisGatewayIp then (s, true)
      else if (lanLookup s.arp useThisGatewayIp).isSome then
        ({ s with routes := s.routes.put i { re with gateIp := useThisGatewayIp } }, true)
      else
        let p := lanStartLookup e s.arp useThisGatewayIp
        if p.2 = false then ({ s with arp := p.1 }, false)
        else
          -- the arguments in the order of the source
          let q := routeMakeNewSlot (s.routes.killDynamic i) useThisGatewayIp forThisHostIp e.sinMask
          ({ arp := p.1, routes := q.1 }, q.2)

/-! ## Steps -/

/-- A step of the caches or a redirect. -/
inductive RedirectOp
  | route (op : RouteOp)
  | register (useThisGatewayIp forThisHostIp : Dword)

/-- An operation, when it happens, which ARP requests can be sent, and the gateway table. -/
structure RedirectEvent where
  now : Dword
  sent : Dword → Bool
  gates : List GateEntry
  op : RedirectOp

section Step

variable (e : Env)

/-- The surroundings of an event. -/
def RedirectEvent.env (ev : RedirectEvent) : Env := { e with now := ev.now, sent := ev.sent }

/-- One step. -/
def stepRedirect (s : RouteState) (ev : RedirectEvent) : RouteState :=
  match ev.op with
  | .route op => stepGated s ⟨ev.env e, ev.gates, op⟩
  | .register gw host => (arpRegister (ev.env e) s gw host).1

/-- Hosts off the LAN are sent through gateways on it. -/
def RouteCache.Sane (r : RouteCache) : Prop :=
  ∀ host gate, r.Holds host gate → isOnLan e host = false ∧ isOnLan e gate = true

/-- Whatever the ARP cache has become, once it resolves the gateway a lookup of the host gives its
MAC. -/
def Honoured (s : RouteState) (gw host : Dword) : Prop :=
  ∀ (now : Dword) (sent : Dword → Bool) (gates : List GateEntry) (c : ArpCache) (mac : Mac),
    let s' := routeCheckTimeouts { e with now := now, sent := sent } gates { s with arp := c } false
    lanLookup s'.arp gw = some mac → (routeLookup s' host).2 = some mac

/-- A redirect that is accepted is honoured, and the cache stays sane. -/
def RedirectLaw (s : RouteState) (ev : RedirectEvent) : Prop :=
  (stepRedirect e s ev).routes.Sane e ∧
  match ev.op with
  | .route _ => True
  | .register gw host =>
    (arpRegister (ev.env e) s gw host).2 = true → Honoured e (arpRegister (ev.env e) s gw host).1 gw host

/-- A redirect of a host with an entry finds the gateway in that entry or in the ARP cache, and the
first entry whose network holds the host is its own or uses the gateway; or the ARP cache has no
room for the gateway. -/
def RedirectKnown (s : RouteState) (ev : RedirectEvent) : Prop :=
  match ev.op with
  | .route _ => True
  | .register gw host =>
    isOnLan e gw = true → isOnLan e host = false → ∀ i, hostSlot s.routes host = some i →
      if (s.routes.list i).gateIp = gw ∨ (lanLookup s.arp gw).isSome = true then
        ∀ k, routeSlot s.routes host = some k → k = i ∨ (s.routes.list k).gateIp = gw
      else (lanStartLookup (ev.env e) s.arp gw).2 = false

end Step

variable {e : Env} {gates : List GateEntry} {s : RouteState} {r r' : RouteCache} {i k : ℤ}
  {gw host : Dword}

/-! ## Sane caches -/

theorem killDynamic_gaveWay (r : RouteCache) (hif : i < r.firstFree) :
    GaveWay r (r.killDynamic i) i := by
  unfold RouteCache.killDynamic
  dsimp only
  split_ifs with hlt
  · exact ⟨rfl, rfl, fun _ => rfl, fun _ => rfl⟩
  · have hlast : i = r.firstFree - 1 := by omega
    exact ⟨rfl, rfl, fun j => by rw [hlast, move_self], fun j => by rw [hlast, move_self]⟩

/-- The picks are sane. -/
theorem stepGated_sane (ho : s.routes.Ordered) (hs : s.routes.Sane e) (now : Dword)
    (sent : Dword → Bool) (gates : List GateEntry) (op : RouteOp) :
    (stepGated s ⟨{ e with now := now, sent := sent }, gates, op⟩).routes.Sane e := by
  intro host gate hh
  obtain hh | ⟨gw, hpick, rfl⟩ := stepGated_holds ho _ hh
  · exact hs host gate hh
  unfold picks at hpick
  cases op with
  | arp op => cases hpick
  | lookup ip => cases hpick
  | startLookup ip =>
    dsimp only at hpick
    split_ifs at hpick with hno
    · cases hpick
    obtain ⟨gw', hgw, hpair⟩ := Option.map_eq_some_iff.mp (Option.mem_toList.mp hpick)
    obtain ⟨rfl, rfl⟩ := Prod.mk.inj hpair
    have hlan := (of_decide_eq_true (startPick_usable hgw)).1
    exact ⟨Bool.eq_false_iff.mpr fun h => hno (.inr h), hlan⟩
  | daemon checkDynamicEntries =>
    obtain ⟨t, ht, hmap⟩ := List.mem_filterMap.mp hpick
    obtain ⟨gw', hgw, hpair⟩ := Option.map_eq_some_iff.mp hmap
    obtain ⟨rfl, rfl⟩ := Prod.mk.inj hpair
    obtain ⟨gate, hh⟩ := turns_holds (s := daemonStart s _ checkDynamicEntries) ho le_rfl ht
    have hfit := (nextTried_eq_some.mp (failOver_eq_some.mp hgw).2).2.1
    exact ⟨(hs _ gate hh).1, (of_decide_eq_true hfit).1⟩

/-! ## What a redirect does -/

theorem hostSlot_eq_some (h : hostSlot r host = some i) :
    0 ≤ i ∧ i < r.firstFree ∧ (r.list i).hostIp = host := by
  obtain ⟨h₁, h₂, h₃, -⟩ := find_eq_some h
  exact ⟨h₁, by omega, of_decide_eq_true h₃⟩

/-- The gateway is in the entry or in the ARP cache. -/
def Known (s : RouteState) (i : ℤ) (gw : Dword) : Prop :=
  (s.routes.list i).gateIp = gw ∨ (lanLookup s.arp gw).isSome = true

/-- The ways a redirect can end: it is turned down, the entry of the host is changed, or it gives
way to a new slot. -/
theorem arpRegister_cases (e : Env) (s : RouteState) (gw host : Dword) :
    ((arpRegister e s gw host).2 = false ∧ (arpRegister e s gw host).1.routes = s.routes ∧
      (isOnLan e gw = true → isOnLan e host = false → ∀ i, hostSlot s.routes host = some i →
        ¬ Known s i gw ∧ (lanStartLookup e s.arp gw).2 = false)) ∨
    isOnLan e gw = true ∧ isOnLan e host = false ∧ ∃ i, hostSlot s.routes host = some i ∧
      (Known s i gw ∧ arpRegister e s gw host =
          ({ s with routes := s.routes.put i { s.routes.list i with gateIp := gw } }, true) ∨
        ¬ Known s i gw ∧ (lanStartLookup e s.arp gw).2 = true ∧
          (arpRegister e s gw host).1.routes =
            (routeMakeNewSlot (s.routes.killDynamic i) gw host e.sinMask).1) := by
  unfold arpRegister Known
  by_cases hlan : isOnLan e gw = false ∨ isOnLan e host
  · rw [if_pos hlan]
    refine .inl ⟨rfl, rfl, fun hg hh => ?_⟩
    rw [hg, hh] at hlan
    exact absurd hlan (by decide)
  rw [if_neg hlan, not_or, Bool.not_eq_false, Bool.not_eq_true] at *
  cases hslot : hostSlot s.routes host with
  | none => exact .inl ⟨rfl, rfl, fun _ _ => nofun⟩
  | some i =>
    dsimp only
    split_ifs with hgate hres hroom
    · have hsame : s.routes.put i { s.routes.list i with gateIp := gw } = s.routes := by
        unfold RouteCache.put
        rw [← hgate]
        dsimp only
        rw [Function.update_eq_self]
      exact .inr ⟨hlan.1, hlan.2, i, rfl, .inl ⟨.inl hgate, by rw [hsame]⟩⟩
    · exact .inr ⟨hlan.1, hlan.2, i, rfl, .inl ⟨.inr hres, rfl⟩⟩
    · refine .inl ⟨rfl, rfl, fun _ _ j hj => ?_⟩
      obtain rfl := Option.some.inj hj
      exact ⟨not_or.mpr ⟨hgate, hres⟩, hroom⟩
    · exact .inr ⟨hlan.1, hlan.2, i, rfl,
        .inr ⟨not_or.mpr ⟨hgate, hres⟩, Bool.not_eq_false _ ▸ hroom, rfl⟩⟩

/-- The new slot sends the gateway through the host. -/
theorem newSlot_holds (ho : s.routes.Ordered) (hi : 0 ≤ i) (hif : i < s.routes.firstFree)
    (mask : Dword) :
    (routeMakeNewSlot (s.routes.killDynamic i) gw host mask).1.Holds gw host := by
  have hg := killDynamic_gaveWay s.routes hif
  have ho' := hg.ordered ho hi hif
  have h₁ := ho.pending
  have h₂ := ho'.top
  have h₃ := hg.free
  have h₄ := hg.pending
  obtain ⟨hfull, -, -⟩ | ⟨r₁, ⟨rfl, -⟩ | ⟨hfull, -, -⟩, heq⟩ :=
    routeMakeNewSlot_cases (s.routes.killDynamic i) gw host mask
  · omega
  · rw [heq]
    refine ⟨(s.routes.killDynamic i).firstPending - 1, .inr ⟨le_rfl, by omega⟩, ?_⟩
    dsimp only [RouteCache.pushPending, RouteCache.put]
    rw [Function.update_self]
    exact ⟨rfl, rfl⟩
  · omega

/-! ## Lookups of the host -/

/-- The first entry that stands for a host depends on the hosts and masks. -/
theorem routeSlot_congr (hfree : r'.firstFree = r.firstFree)
    (hhost : ∀ j, (r'.list j).hostIp = (r.list j).hostIp)
    (hmask : ∀ j, (r'.list j).mask = (r.list j).mask) (host : Dword) :
    routeSlot r' host = routeSlot r host := by
  unfold routeSlot
  rw [hfree]
  simp only [hhost, hmask]

/-- More entries behind do not change what is found. -/
theorem routeSlot_extend (hfree : r.firstFree ≤ r'.firstFree)
    (hlist : ∀ j, j < r.firstFree → r'.list j = r.list j) (h : routeSlot r host = some k) :
    routeSlot r' host = some k := by
  unfold routeSlot at h ⊢
  rw [find_eq_some_iff] at h ⊢
  obtain ⟨h₁, h₂, h₃, h₄⟩ := h
  refine ⟨h₁, by omega, ?_, fun j hj hjk => ?_⟩
  · rw [hlist k (by omega)]
    exact h₃
  · rw [hlist j (by omega)]
    exact h₄ j hj hjk

/-- A host with an entry has one that stands for it. -/
theorem routeSlot_of_hostSlot (h : hostSlot r host = some i) : ∃ k, routeSlot r host = some k := by
  obtain ⟨hi, hif, hhost⟩ := hostSlot_eq_some h
  unfold routeSlot
  refine Option.isSome_iff_exists.mp (find_isSome.mpr ⟨i, hi, by omega, ?_⟩)
  exact decide_eq_true (.inl hhost)

/-- The lookup asks the ARP cache for the gateway of that entry. -/
theorem routeLookup_eq (h : routeSlot s.routes host = some k) :
    (routeLookup s host).2 = lanLookup s.arp (s.routes.list k).gateIp := by
  unfold routeLookup
  rw [h]
  dsimp only
  cases hl : lanLookup s.arp (s.routes.list k).gateIp <;> rfl

/-- Without gateways to try, the pass leaves the ARP cache alone. -/
theorem checkPendingRoutes_nil_arp (e : Env) (ho : s.routes.Ordered)
    (hi : s.routes.firstPending ≤ i) : (checkPendingRoutes e [] s i).arp = s.arp := by
  refine checkPendingRoutes_rule e [] (P := fun s _ _ r => r.arp = s.arp) ?_ ?_ ho hi
  · exact fun _ _ _ => rfl
  · intro s i ts r _ _ _ ih
    refine ih.trans ?_
    unfold checkPendingRoute
    dsimp only
    split_ifs <;> rfl

/-- **Once its first entry is known, a redirect is honoured exactly if that entry uses the gateway.** -/
theorem honoured_iff (ho : s.routes.Ordered) (hk : routeSlot s.routes host = some k) :
    Honoured e s gw host ↔ (s.routes.list k).gateIp = gw := by
  have hkf : k < s.routes.firstFree := by
    obtain ⟨h₁, h₂, -, -⟩ := find_eq_some hk
    have := ho.free
    omega
  -- the pass changes neither which entry is found nor its gateway
  have hpass : ∀ (e' : Env) gates c, routeSlot
        (routeCheckTimeouts e' gates { s with arp := c } false).routes host = some k ∧
      ((routeCheckTimeouts e' gates { s with arp := c } false).routes.list k).gateIp =
        (s.routes.list k).gateIp := by
    intro e' gates c
    obtain ⟨-, hle, hlist⟩ := checkPendingRoutes_frame e' gates (s := { s with arp := c }) ho le_rfl
    exact ⟨routeSlot_extend hle hlist hk, congrArg _ (hlist k hkf)⟩
  constructor
  · intro hh
    by_contra hne
    -- an ARP cache with the gateway alone
    let c : ArpCache := { list := fun _ => { ip := gw }, firstPending := arpTopOfCache,
                          firstFree := 1, firstDynamic := 1 }
    have harp : (routeCheckTimeouts { e with now := 0, sent := fun _ => true } []
        { s with arp := c } false).arp = c := checkPendingRoutes_nil_arp _ ho le_rfl
    have hlook := hh 0 (fun _ => true) [] c 0
    dsimp only at hlook
    rw [routeLookup_eq (hpass _ _ _).1, (hpass _ _ _).2, harp] at hlook
    have hgw : ∀ ip, lanLookup c ip = if gw = ip then some 0 else none := by
      intro ip
      unfold lanLookup ArpCache.search
      by_cases hip : gw = ip
      · simp [c, Slots.find, hip]
      · simp [c, Slots.find, hip]
    rw [hgw, hgw, if_pos rfl, if_neg (Ne.symm hne)] at hlook
    exact absurd (hlook rfl) (by simp)
  · intro hgate now sent gates c mac s' hmac
    obtain ⟨hslot, hsame⟩ := hpass { e with now := now, sent := sent } gates c
    rw [routeLookup_eq hslot, hsame, hgate]
    exact hmac

/-! ## The law -/

theorem put_ordered (ho : r.Ordered) (re : RouteEntry) : (r.put i re).Ordered :=
  ⟨ho.free, ho.pending, ho.top⟩

/-- A redirect that changes an entry: the cache stays sane, and it is honoured if no other entry
stands for the host. -/
theorem redirect_known (ho : s.routes.Ordered) (hs : s.routes.Sane e) (hgw : isOnLan e gw = true)
    (hhost : isOnLan e host = false) (hi : hostSlot s.routes host = some i) :
    (s.routes.put i { s.routes.list i with gateIp := gw }).Sane e ∧
      (Honoured e { s with routes := s.routes.put i { s.routes.list i with gateIp := gw } } gw host ↔
        ∀ k, routeSlot s.routes host = some k → k = i ∨ (s.routes.list k).gateIp = gw) := by
  obtain ⟨-, -, hih⟩ := hostSlot_eq_some hi
  constructor
  · intro h g hh
    obtain hh | ⟨rfl, rfl⟩ := put_holds hh
    · exact hs h g hh
    · exact ⟨hih ▸ hhost, hgw⟩
  · obtain ⟨k, hk⟩ := routeSlot_of_hostSlot hi
    have hk' : routeSlot (s.routes.put i { s.routes.list i with gateIp := gw }) host = some k := by
      have hhosts : ∀ j, ((s.routes.put i { s.routes.list i with gateIp := gw }).list j).hostIp =
          (s.routes.list j).hostIp := put_hosts rfl
      rw [← hk]
      refine routeSlot_congr ?_ hhosts (fun j => ?_) host
      · rfl
      unfold RouteCache.put
      dsimp only
      rw [Function.update_apply]
      split_ifs with hj
      · rw [hj]
      · rfl
    refine (honoured_iff (put_ordered ho _) hk').trans ?_
    rw [hk]
    have hgate : ((s.routes.put i { s.routes.list i with gateIp := gw }).list k).gateIp = gw ↔
        k = i ∨ (s.routes.list k).gateIp = gw := by
      unfold RouteCache.put
      dsimp only
      by_cases hki : k = i
      · rw [hki, Function.update_self]
        exact iff_of_true rfl (.inl rfl)
      · rw [Function.update_of_ne hki]
        exact (or_iff_right hki).symm
    refine hgate.trans ?_
    exact ⟨fun h k' hk' => Option.some.inj hk' ▸ h, fun h => h k rfl⟩

/-- **One step.** -/
theorem redirectLaw_iff (ho : s.routes.Ordered) (hs : s.routes.Sane e) (ev : RedirectEvent) :
    RedirectLaw e s ev ↔ RedirectKnown e s ev := by
  unfold RedirectLaw RedirectKnown stepRedirect
  cases ev.op with
  | route op => exact iff_of_true ⟨stepGated_sane ho hs ev.now ev.sent ev.gates op, trivial⟩ trivial
  | register gw host =>
    dsimp only
    obtain ⟨hfalse, hr, hno⟩ | ⟨hgw, hhost, i, hi, ⟨hknown, heq⟩ | ⟨hunknown, hroom, hr⟩⟩ :=
      arpRegister_cases (ev.env e) s gw host
    · rw [hr, hfalse]
      refine iff_of_true ⟨hs, nofun⟩ fun hgw hhost i hi => ?_
      obtain ⟨hunknown, hfull⟩ := hno hgw hhost i hi
      rw [if_neg (show ¬ (_ ∨ _) from hunknown)]
      exact hfull
    · obtain ⟨hsane, hiff⟩ := redirect_known ho hs hgw hhost hi
      rw [heq]
      dsimp only
      rw [and_iff_right hsane, forall_prop_of_true rfl, hiff]
      constructor
      · intro h _ _ j hj
        obtain rfl := Option.some.inj (hi.symm.trans hj)
        rw [if_pos (show _ ∨ _ from hknown)]
        exact h
      · intro h
        have hi' := h hgw hhost i hi
        rwa [if_pos (show _ ∨ _ from hknown)] at hi'
    · obtain ⟨h₀, hif, -⟩ := hostSlot_eq_some hi
      refine iff_of_false (fun h => ?_) fun h => ?_
      · -- the gateway is on the LAN
        have hbad := h.1 gw host (hr ▸ newSlot_holds ho h₀ hif _)
        rw [show isOnLan e gw = true from hgw] at hbad
        cases hbad.1
      · have hfull := h hgw hhost i hi
        rw [if_neg (show ¬ (_ ∨ _) from hunknown), hroom] at hfull
        cases hfull

theorem stepRedirect_ordered (ho : s.routes.Ordered) (ev : RedirectEvent) :
    (stepRedirect e s ev).routes.Ordered := by
  unfold stepRedirect
  cases ev.op with
  | route op => exact stepGated_ordered ho _
  | register gw host =>
    obtain ⟨-, hr, -⟩ | ⟨-, -, i, hi, ⟨-, heq⟩ | ⟨-, -, hr⟩⟩ :=
      arpRegister_cases (ev.env e) s gw host <;> dsimp only
    · rw [hr]
      exact ho
    · rw [heq]
      exact put_ordered ho _
    · obtain ⟨h₀, hif, -⟩ := hostSlot_eq_some hi
      rw [hr]
      exact routeMakeNewSlot_ordered ((killDynamic_gaveWay s.routes hif).ordered ho h₀ hif)

/-- **Redirects**: in a run from empty caches the route cache holds hosts off the LAN with gateways
on the LAN and every accepted redirect is honoured, exactly if every redirect of a host with an entry
names a gateway that is known already, and no other entry stands for the host. -/
theorem redirects_iff (e : Env) (evs : List RedirectEvent) :
    Always (stepRedirect e) (RedirectLaw e) .empty evs ↔
      Always (stepRedirect e) (RedirectKnown e) .empty evs := by
  refine always_iff_of_invariant
    (I := fun s : RouteState => s.routes.Ordered ∧ s.routes.Sane e) ?_ ?_ evs ⟨?_, ?_⟩
  · rintro s ev ⟨ho, hs⟩ hk
    exact ⟨stepRedirect_ordered ho ev, ((redirectLaw_iff ho hs ev).mpr hk).1⟩
  · rintro s ev ⟨ho, hs⟩
    exact redirectLaw_iff ho hs ev
  · exact ⟨le_rfl, by decide, le_rfl⟩
  · rintro host gate ⟨j, hj, -⟩
    unfold RouteCache.Live RouteState.empty RouteCache.empty at hj
    dsimp only at hj
    omega

/-! ## A redirect to an unknown gateway -/

/-- The answer of `10.0.0.254`. -/
def answerOfFirst : ArpPacket where
  macDst := 0x020000000001
  opcode := arpReply
  srcEthAddr := 0x0200000000fe
  srcIpAddr := 0x0a0000fe
  dstEthAddr := 0x020000000001
  dstIpAddr := 0x0a000001

/-- `20.0.0.1` is reached through `10.0.0.254`, which redirects it to `10.0.0.253`. -/
def redirected : List RedirectEvent :=
  let gates : List GateEntry := [{ gateIp := 0x0a0000fe, subnet := 0, mask := 0 }]
  [⟨1, fun _ => true, gates, .route (.startLookup 0x14000001)⟩,
    ⟨2, fun _ => true, gates, .route (.arp (.packet answerOfFirst))⟩,
    ⟨3, fun _ => true, gates, .route (.daemon false)⟩,
    ⟨4, fun _ => true, gates, .register 0x0a0000fd 0x14000001⟩]

theorem redirect_swapped :
    let e : Env := { myIpAddr := 0x0a000001, sinMask := 0xffffff00, ethAddr := 0x020000000001 }
    ¬ Always (stepRedirect e) (RedirectLaw e) .empty redirected := by
  rintro e ⟨-, -, -, ⟨h, -⟩, -⟩
  -- the gateway stands for the host and the host for the gateway
  have hbad := h 0x0a0000fd 0x14000001 ⟨31, .inr ⟨by decide +kernel, by decide⟩, by decide +kernel,
    by decide +kernel⟩
  revert hbad
  decide

end Watt32.Arp
