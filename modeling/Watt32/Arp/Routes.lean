import Watt32.Arp.Gateways

/-!
# The route cache

`pcarp.c`: which gateway a host outside the LAN is reached through.

* `routeStartLookup`: select a gateway and put a pending entry.
* `routeLookup`: the first dynamic entry whose network holds the host.
* `routeCheckTimeouts`: pending entries become dynamic, go on to the next gateway or are dropped.
* `stepRoutes`: one step of the ARP cache and the route cache together.
-/

namespace Watt32.Arp

open Machine

/-- `route_entry`. `movedOn` is not in the source: the gateway is no longer the one chosen first. -/
structure RouteEntry where
  hostIp : Dword := 0
  gateIp : Dword := 0
  mask : Dword := 0
  used : Bool := false
  pending : Bool := false
  movedOn : Bool := false
deriving DecidableEq

/-- `ROUTE_TOP_OF_CACHE`, also `ROUTE_TOP_PENDING`. -/
def routeTopOfCache : ℤ := 32

/-- `route_list` with its index variables: `firstFree` is also `route_top_dynamic`. -/
structure RouteCache where
  list : ℤ → RouteEntry
  firstPending : ℤ
  firstFree : ℤ

namespace RouteCache

def empty : RouteCache :=
  { list := fun _ => {}, firstPending := routeTopOfCache, firstFree := 0 }

/-- `route_move_entry`. -/
def moveEntry (r : RouteCache) (toIndex fromIndex : ℤ) : RouteCache :=
  { r with list := Slots.move r.list toIndex fromIndex }

/-- Put an entry in the slot `i`. -/
def put (r : RouteCache) (i : ℤ) (re : RouteEntry) : RouteCache :=
  { r with list := Function.update r.list i re }

end RouteCache

/-- The two caches. -/
structure RouteState where
  arp : ArpCache
  routes : RouteCache

/-- Both caches empty. -/
def RouteState.empty : RouteState := { arp := .empty, routes := .empty }

/-! ## Lookups -/

/-- `ON_SAME_NETWORK`. -/
def onSameNetwork (addr1 addr2 mask : Dword) : Bool := addr1 &&& mask = addr2 &&& mask

/-- The loop of `route_lookup`. -/
def routeSlot (r : RouteCache) (ip : Dword) : Option ℤ :=
  Slots.find (fun i => (r.list i).hostIp = ip ∨ onSameNetwork ip (r.list i).hostIp (r.list i).mask)
    r.firstFree.toNat 0

/-- `route_lookup`. -/
def routeLookup (s : RouteState) (ip : Dword) : RouteState × Option Mac :=
  match routeSlot s.routes ip with
  | none => (s, none)
  | some i =>
    let re := s.routes.list i
    match lanLookup s.arp re.gateIp with
    | none => ({ s with routes := s.routes.put i { re with pending := true } }, none)
    | some eth => ({ s with routes := s.routes.put i { re with pending := false } }, some eth)

/-- The gateway whose address `route_lookup` returns. -/
def gatewayUsed (s : RouteState) (ip : Dword) : Option Dword :=
  match routeSlot s.routes ip, (routeLookup s ip).2 with
  | some i, some _ => some (s.routes.list i).gateIp
  | _, _ => none

/-- `route_make_new_slot`. -/
def routeMakeNewSlot (r : RouteCache) (hostIp gateIp mask : Dword) : RouteCache × Bool :=
  let new (r : RouteCache) : RouteCache :=
    { r with firstPending := r.firstPending - 1 }.put (r.firstPending - 1)
      { hostIp := hostIp, gateIp := gateIp, mask := mask, used := true, pending := true }
  if r.firstFree < r.firstPending then (new r, true)
  else if 0 < r.firstFree then
    -- the first dynamic entry is overwritten with the top one
    let r' := { r with firstFree := r.firstFree - 1 }
    (new (if 0 < r'.firstFree then r'.moveEntry 0 r'.firstFree else r'), true)
  else (r, false)

/-- `route_start_lookup`. -/
def routeStartLookup (e : Env) (gates : List GateEntry) (s : RouteState) (ip : Dword) :
    RouteState × Bool :=
  let r := s.routes
  if (Slots.find (fun i => (r.list i).hostIp = ip) (routeTopOfCache - r.firstPending).toNat
      r.firstPending).isSome then (s, true)
  else if (Slots.find (fun i => (r.list i).hostIp = ip) r.firstFree.toNat 0).isSome then (s, true)
  else
    match selectGateway e gates ip with
    | none => (s, false)
    | some gw =>
      let p := lanStartLookup e s.arp gw.gateIp
      if p.2 = false ∨ gw.gateIp = 0 then ({ s with arp := p.1 }, false)
      else ({ arp := p.1, routes := (routeMakeNewSlot r ip gw.gateIp gw.mask).1 }, true)

/-! ## Timeouts -/

/-- Take the pending entry `i` out; what fills the hole is looked at next. -/
def RouteCache.dropPending (r : RouteCache) (i : ℤ) : RouteCache × ℤ :=
  if r.firstPending < i then
    ({ r.moveEntry i r.firstPending with firstPending := r.firstPending + 1 }, i)
  else ({ r with firstPending := r.firstPending + 1 }, i + 1)

/-- The next gateway of `route_check_timeouts` behind `last`; whether it is alive is not asked. -/
def nextGateway (e : Env) (gates : List GateEntry) (last hostIp : Dword) : Option GateEntry :=
  (if gates.any (·.gateIp = last) then (gates.dropWhile (·.gateIp ≠ last)).tail else gates).find?
    fun gw => isOnLan e gw.gateIp ∧ gw.mask &&& hostIp = gw.subnet

/-- `route_check_timeouts` on the pending entry `i`, and the entry to look at next. -/
def checkPendingRoute (e : Env) (gates : List GateEntry) (s : RouteState) (i : ℤ) :
    RouteState × ℤ :=
  let re := s.routes.list i
  if (lanLookup s.arp re.gateIp).isSome then
    let p := s.routes.dropPending i
    let r := { p.1 with firstFree := p.1.firstFree + 1 }
    ({ s with routes := r.put p.1.firstFree { re with pending := false } }, p.2)
  else if lanLookupPending s.arp re.gateIp then (s, i + 1)
  else
    match nextGateway e gates re.gateIp re.hostIp with
    | none => ({ s with routes := (s.routes.dropPending i).1 }, (s.routes.dropPending i).2)
    | some gw =>
      let p := lanStartLookup e s.arp gw.gateIp
      if p.2 then
        ({ arp := p.1, routes := s.routes.put i { re with gateIp := gw.gateIp, movedOn := true } },
          i + 1)
      else ({ arp := p.1, routes := (s.routes.dropPending i).1 }, (s.routes.dropPending i).2)

theorem dropPending_measure (r : RouteCache) {i : ℤ} (hi : i < routeTopOfCache) :
    (routeTopOfCache - (r.dropPending i).2).toNat +
        (routeTopOfCache - (r.dropPending i).1.firstPending).toNat <
      (routeTopOfCache - i).toNat + (routeTopOfCache - r.firstPending).toNat := by
  unfold RouteCache.dropPending
  split_ifs with h
  · dsimp only [RouteCache.moveEntry]
    omega
  · dsimp only
    omega

theorem checkPendingRoute_measure (e : Env) (gates : List GateEntry) (s : RouteState) {i : ℤ}
    (hi : i < routeTopOfCache) :
    (routeTopOfCache - (checkPendingRoute e gates s i).2).toNat +
        (routeTopOfCache - (checkPendingRoute e gates s i).1.routes.firstPending).toNat <
      (routeTopOfCache - i).toNat + (routeTopOfCache - s.routes.firstPending).toNat := by
  have hdrop := dropPending_measure s.routes hi
  unfold checkPendingRoute
  dsimp only
  split_ifs
  · exact hdrop
  · dsimp only
    omega
  · split
    · exact hdrop
    · split_ifs
      · dsimp only [RouteCache.put]
        omega
      · exact hdrop

/-- `route_check_timeouts` on the pending entries from `i` on. -/
def checkPendingRoutes (e : Env) (gates : List GateEntry) (s : RouteState) (i : ℤ) : RouteState :=
  if i < routeTopOfCache then
    checkPendingRoutes e gates (checkPendingRoute e gates s i).1 (checkPendingRoute e gates s i).2
  else s
termination_by (routeTopOfCache - i).toNat + (routeTopOfCache - s.routes.firstPending).toNat
decreasing_by exact checkPendingRoute_measure e gates s ‹_›

/-- `route_check_timeouts` on the dynamic entries from `i` on. -/
def checkDynamicRoutes (c : ArpCache) (r : RouteCache) (i : ℤ) : RouteCache :=
  if i < r.firstFree then
    if (lanLookup c (r.list i).gateIp).isSome then checkDynamicRoutes c r (i + 1)
    else
      let r' := { r with firstFree := r.firstFree - 1 }
      if i < r'.firstFree then
        let r' := r'.moveEntry i r'.firstFree
        -- the flag is cleared in the entry before the one that was moved
        checkDynamicRoutes c
          (if 1 ≤ i - 1 then r'.put (i - 1) { r'.list (i - 1) with used := false } else r') i
      else checkDynamicRoutes c r' (i + 1)
  else r
termination_by (r.firstFree - i).toNat
decreasing_by
  all_goals (try split_ifs); all_goals (try dsimp only [RouteCache.put, RouteCache.moveEntry]); omega

/-- `route_check_timeouts`. -/
def routeCheckTimeouts (e : Env) (gates : List GateEntry) (s : RouteState)
    (checkDynamicEntries : Bool) : RouteState :=
  let s := checkPendingRoutes e gates s s.routes.firstPending
  if checkDynamicEntries then { s with routes := checkDynamicRoutes s.arp s.routes 0 } else s

/-! ## Runs -/

/-- What happens to the caches: what happens to the ARP cache, the lookups and the daemon. -/
inductive RouteOp
  | arp (op : ArpOp)
  | startLookup (ip : Dword)
  | lookup (ip : Dword)
  | daemon (checkDynamicEntries : Bool)

/-- An operation, when it happens and which ARP requests can be sent. -/
structure RouteEvent where
  now : Dword
  sent : Dword → Bool
  op : RouteOp

section Step

variable (e : Env) (gates : List GateEntry)

/-- `_arp_start_lookup` behind `arp_check_common`. -/
def arpStartLookup (e : Env) (s : RouteState) (ip : Dword) : RouteState :=
  if ip4IsLocalAddr e ip then s
  else if isOnLan e ip then { s with arp := (lanStartLookup e s.arp ip).1 }
  else (routeStartLookup e gates s ip).1

/-- `_arp_lookup` behind `arp_check_common`. -/
def arpLookup (s : RouteState) (ip : Dword) : RouteState × Option Mac :=
  if ip4IsLocalAddr e ip then (s, some e.ethAddr)
  else if isOnLan e ip then (s, lanLookup s.arp ip)
  else routeLookup s ip

/-- `arp_daemon`. -/
def arpDaemon (e : Env) (s : RouteState) (checkDynamicEntries : Bool) : RouteState :=
  routeCheckTimeouts e gates { s with arp := arpCheckTimeouts e s.arp checkDynamicEntries }
    checkDynamicEntries

/-- One step of the caches. -/
def stepRoutes (s : RouteState) (ev : RouteEvent) : RouteState :=
  let e := { e with now := ev.now, sent := ev.sent }
  match ev.op with
  | .arp op => { s with arp := stepArp s.arp ⟨e, op⟩ }
  | .startLookup ip => arpStartLookup gates e s ip
  | .lookup ip => (arpLookup e s ip).1
  | .daemon checkDynamicEntries => arpDaemon gates e s checkDynamicEntries

end Step

end Watt32.Arp
