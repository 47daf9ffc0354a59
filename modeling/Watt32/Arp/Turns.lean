import Watt32.Arp.Independence

/-!
# The turns of the route check

`route_check_timeouts` looks at one pending entry after the other; an entry that fills a hole is
looked at again.

* `Resolved`, `Waiting`, `failOver`, `Lost`: how a turn ends for its entry.
* `turns`: the turns of a pass, each with the state it starts from.
* `RouteCache.Ordered`, `NoTwice`, `Via`, `HasPending`: the sections of the cache.
* **`checkPendingRoutes_spec`**: what a pass does to the sections, by the outcomes of its turns.
-/

namespace Watt32.Arp

open Slots

/-! ## Outcomes -/

section Outcomes

variable (e : Env) (gates : List GateEntry) (s : RouteState) (i : ℤ)

/-- The gateway of the entry `i` is in the ARP cache. -/
def Resolved : Prop := (lanLookup s.arp (s.routes.list i).gateIp).isSome = true

/-- The lookup of the gateway goes on. -/
def Waiting : Prop :=
  lanLookup s.arp (s.routes.list i).gateIp = none ∧
    lanLookupPending s.arp (s.routes.list i).gateIp = true

/-- The lookup of the gateway has failed. -/
def Failed : Prop :=
  lanLookup s.arp (s.routes.list i).gateIp = none ∧
    lanLookupPending s.arp (s.routes.list i).gateIp = false

/-- The gateway tried next, if there is one and the ARP cache has room for it. -/
def nextTried : Option GateEntry :=
  (nextGateway e gates (s.routes.list i).gateIp (s.routes.list i).hostIp).filter fun gw =>
    (lanStartLookup e s.arp gw.gateIp).2

/-- The gateway that `route_check_timeouts` puts into the entry `i`. -/
def failOver : Option GateEntry :=
  if (lanLookup s.arp (s.routes.list i).gateIp).isSome ∨
      lanLookupPending s.arp (s.routes.list i).gateIp then none
  else nextTried e gates s i

/-- The entry `i` is given up. -/
def Lost : Prop := Failed s i ∧ nextTried e gates s i = none

/-- The turns of the loop over the pending entries from `i` on. -/
def turns (s : RouteState) (i : ℤ) : List (RouteState × ℤ) :=
  if i < routeTopOfCache then
    (s, i) :: turns (checkPendingRoute e gates s i).1 (checkPendingRoute e gates s i).2
  else []
termination_by (routeTopOfCache - i).toNat + (routeTopOfCache - s.routes.firstPending).toNat
decreasing_by exact checkPendingRoute_measure e gates s ‹_›

end Outcomes

variable {e : Env} {gates : List GateEntry} {s : RouteState} {r : RouteCache} {i j : ℤ}

theorem failOver_eq_some {gw : GateEntry} :
    failOver e gates s i = some gw ↔ Failed s i ∧ nextTried e gates s i = some gw := by
  unfold failOver Failed
  rw [Option.ite_none_left_eq_some, not_or, Bool.not_eq_true, Bool.not_eq_true,
    Option.isSome_eq_false_iff, Option.isNone_iff_eq_none]

/-- The ways a turn can end. -/
theorem checkPendingRoute_cases (e : Env) (gates : List GateEntry) (s : RouteState) (i : ℤ) :
    Resolved s i ∧ (checkPendingRoute e gates s i).1.arp = s.arp ∧
      (checkPendingRoute e gates s i).1.routes =
        RouteCache.put { (s.routes.dropPending i).1 with
          firstFree := (s.routes.dropPending i).1.firstFree + 1 }
          (s.routes.dropPending i).1.firstFree { s.routes.list i with pending := false } ∧
      (checkPendingRoute e gates s i).2 = (s.routes.dropPending i).2 ∨
    Waiting s i ∧ checkPendingRoute e gates s i = (s, i + 1) ∨
    Lost e gates s i ∧ (checkPendingRoute e gates s i).1.routes = (s.routes.dropPending i).1 ∧
      (checkPendingRoute e gates s i).2 = (s.routes.dropPending i).2 ∨
    ∃ gw, failOver e gates s i = some gw ∧
      checkPendingRoute e gates s i =
        ({ arp := (lanStartLookup e s.arp gw.gateIp).1,
           routes := s.routes.put i { s.routes.list i with gateIp := gw.gateIp, movedOn := true } },
          i + 1) := by
  simp only [failOver_eq_some]
  unfold Resolved Waiting Lost Failed nextTried checkPendingRoute
  dsimp only
  split_ifs with hlan hpend
  · exact .inl ⟨hlan, rfl, rfl, rfl⟩
  · rw [Option.not_isSome_iff_eq_none] at hlan
    exact .inr (.inl ⟨⟨hlan, hpend⟩, rfl⟩)
  · rw [Option.not_isSome_iff_eq_none] at hlan
    rw [Bool.not_eq_true] at hpend
    refine .inr (.inr ?_)
    cases hn : nextGateway e gates (s.routes.list i).gateIp (s.routes.list i).hostIp with
    | none => exact .inl ⟨⟨⟨hlan, hpend⟩, rfl⟩, rfl, rfl⟩
    | some gw =>
      dsimp only
      split_ifs with hroom
      · exact .inr ⟨gw, ⟨⟨hlan, hpend⟩, Option.filter_some_pos hroom⟩, rfl⟩
      · exact .inl ⟨⟨⟨hlan, hpend⟩, Option.filter_some_neg (Bool.eq_false_iff.mpr hroom)⟩, rfl, rfl⟩

/-! ## The sections -/

/-- The order of the index variables. -/
structure RouteCache.Ordered (r : RouteCache) : Prop where
  free : 0 ≤ r.firstFree
  pending : r.firstFree ≤ r.firstPending
  top : r.firstPending ≤ routeTopOfCache

/-- No host occupies two live slots. -/
def RouteCache.NoTwice (r : RouteCache) : Prop := Distinct RouteEntry.hostIp r.Live r.list

/-- A resolved route sends `host` through `gate`. -/
def RouteCache.Via (r : RouteCache) (host gate : Dword) : Prop :=
  ∃ j, 0 ≤ j ∧ j < r.firstFree ∧ (r.list j).hostIp = host ∧ (r.list j).gateIp = gate

/-- `host` has a pending route. -/
def RouteCache.HasPending (r : RouteCache) (host : Dword) : Prop :=
  ∃ j, r.firstPending ≤ j ∧ j < routeTopOfCache ∧ (r.list j).hostIp = host

/-- A live entry sends `host` through `gate`. -/
def RouteCache.Holds (r : RouteCache) (host gate : Dword) : Prop :=
  ∃ j, r.Live j ∧ (r.list j).hostIp = host ∧ (r.list j).gateIp = gate

/-- The host of the entry a turn looks at. -/
def turnHost (t : RouteState × ℤ) : Dword := (t.1.routes.list t.2).hostIp

/-- Its gateway. -/
def turnGate (t : RouteState × ℤ) : Dword := (t.1.routes.list t.2).gateIp

theorem dropPending_eq (hi : r.firstPending ≤ i) : (r.dropPending i).1 =
    { r.moveEntry i r.firstPending with firstPending := r.firstPending + 1 } := by
  unfold RouteCache.dropPending
  split_ifs with hlt
  · rfl
  · have heq : i = r.firstPending := by omega
    rw [heq]
    unfold RouteCache.moveEntry
    rw [move_self]

/-- Elsewhere nothing changes. -/
theorem dropPending_list (hi : r.firstPending ≤ i) (hj : j ≠ i) :
    (r.dropPending i).1.list j = r.list j := by
  rw [dropPending_eq hi]
  dsimp only [RouteCache.moveEntry]
  rw [move_apply, if_neg hj]

theorem dropPending_live (ho : r.Ordered) (hi : r.firstPending ≤ i)
    (hj : (r.dropPending i).1.Live j) : r.Live j ∧ j ≠ r.firstPending := by
  have h₁ := ho.pending
  rw [dropPending_eq hi] at hj
  unfold RouteCache.Live at *
  dsimp only [RouteCache.moveEntry] at hj
  omega

section Drop

variable (ho : r.Ordered) (hu : r.NoTwice) (hi : r.firstPending ≤ i) (hit : i < routeTopOfCache)
include ho hi hit

theorem dropPending_ordered : (r.dropPending i).1.Ordered := by
  rw [dropPending_eq hi]
  exact ⟨ho.free, by have := ho.pending; dsimp only [RouteCache.moveEntry]; omega, by dsimp only; omega⟩

theorem dropPending_holds {host gate : Dword} (hh : (r.dropPending i).1.Holds host gate) :
    r.Holds host gate := by
  obtain ⟨j, hj, rfl, rfl⟩ := hh
  by_cases hji : j = i
  · refine ⟨r.firstPending, .inr ⟨le_rfl, by omega⟩, ?_⟩
    rw [dropPending_eq hi]
    dsimp only [RouteCache.moveEntry]
    rw [move_apply, if_pos hji]
    exact ⟨rfl, rfl⟩
  · exact ⟨j, (dropPending_live ho hi hj).1, by rw [dropPending_list hi hji],
      by rw [dropPending_list hi hji]⟩

include hu

theorem dropPending_noTwice : (r.dropPending i).1.NoTwice := by
  rw [dropPending_eq hi]
  have h₁ := ho.pending
  refine Distinct.move hu (.inr ⟨le_rfl, by omega⟩) fun j hj hne => ?_
  rw [← dropPending_eq hi] at hj
  exact dropPending_live ho hi hj

/-- The host of the entry taken out is in the cache no more. -/
theorem dropPending_absent (hj : (r.dropPending i).1.Live j) :
    ((r.dropPending i).1.list j).hostIp ≠ (r.list i).hostIp := by
  have h₁ := ho.free
  have h₂ := ho.pending
  have hlive : r.Live i := .inr ⟨hi, hit⟩
  rw [dropPending_eq hi] at hj ⊢
  unfold RouteCache.Live at hj
  dsimp only [RouteCache.moveEntry] at hj ⊢
  rw [move_apply]
  intro heq
  split_ifs at heq with hji
  · have := hu _ _ (.inr ⟨le_rfl, by omega⟩) hlive heq
    omega
  · have := hu _ _ (by unfold RouteCache.Live; omega) hlive heq
    omega

theorem dropPending_hasPending (host : Dword) :
    (r.dropPending i).1.HasPending host ↔ r.HasPending host ∧ host ≠ (r.list i).hostIp := by
  have h₁ := ho.free
  have h₂ := ho.pending
  constructor
  · rintro ⟨j, hj, hjt, rfl⟩
    refine ⟨?_, dropPending_absent ho hu hi hit (.inr ⟨hj, hjt⟩)⟩
    rw [dropPending_eq hi] at hj ⊢
    dsimp only [RouteCache.moveEntry] at hj ⊢
    rw [move_apply]
    split_ifs with hji
    · exact ⟨r.firstPending, le_rfl, by omega, rfl⟩
    · exact ⟨j, by omega, hjt, rfl⟩
  · rintro ⟨⟨j, hj, hjt, rfl⟩, hne⟩
    have hji : j ≠ i := fun h => hne (h ▸ rfl)
    rw [dropPending_eq hi]
    by_cases hfirst : j = r.firstPending
    · refine ⟨i, by dsimp only; omega, hit, ?_⟩
      dsimp only [RouteCache.moveEntry]
      rw [move_apply, if_pos rfl, hfirst]
    · refine ⟨j, by dsimp only; omega, hjt, ?_⟩
      dsimp only [RouteCache.moveEntry]
      rw [move_apply, if_neg hji]

end Drop

/-! ## One turn -/

/-- The entry `re` goes behind the dynamic ones. -/
def RouteCache.push (r : RouteCache) (re : RouteEntry) : RouteCache :=
  RouteCache.put { r with firstFree := r.firstFree + 1 } r.firstFree re

section Push

variable {re : RouteEntry}

theorem push_live : (r.push re).Live j → j = r.firstFree ∨ r.Live j := by
  unfold RouteCache.Live RouteCache.push RouteCache.put
  dsimp only
  omega

theorem push_noTwice (hu : r.NoTwice) (hnew : ∀ j, r.Live j → (r.list j).hostIp ≠ re.hostIp) :
    (r.push re).NoTwice :=
  Distinct.put hu (fun j hj _ => hnew j hj) fun _ => push_live

theorem push_holds {host gate : Dword} (hh : (r.push re).Holds host gate) :
    r.Holds host gate ∨ re.hostIp = host ∧ re.gateIp = gate := by
  obtain ⟨j, hj, rfl, rfl⟩ := hh
  unfold RouteCache.push RouteCache.put
  dsimp only
  by_cases hjf : j = r.firstFree
  · rw [hjf, Function.update_self]
    exact .inr ⟨rfl, rfl⟩
  · rw [Function.update_of_ne hjf]
    exact .inl ⟨j, (push_live hj).resolve_left hjf, rfl, rfl⟩

theorem push_via (ho : 0 ≤ r.firstFree) (host gate : Dword) :
    (r.push re).Via host gate ↔ r.Via host gate ∨ re.hostIp = host ∧ re.gateIp = gate := by
  unfold RouteCache.Via RouteCache.push RouteCache.put
  dsimp only
  constructor
  · rintro ⟨j, hj, hjf, rfl, rfl⟩
    rw [Function.update_apply]
    split_ifs with h
    · exact .inr ⟨rfl, rfl⟩
    · exact .inl ⟨j, hj, by omega, rfl, rfl⟩
  · rintro (⟨j, hj, hjf, rfl, rfl⟩ | ⟨rfl, rfl⟩)
    · refine ⟨j, hj, by omega, ?_⟩
      rw [Function.update_of_ne hjf.ne]
      exact ⟨rfl, rfl⟩
    · refine ⟨r.firstFree, ho, by omega, ?_⟩
      rw [Function.update_self]
      exact ⟨rfl, rfl⟩

theorem push_hasPending (hroom : r.firstFree < r.firstPending) (host : Dword) :
    (r.push re).HasPending host ↔ r.HasPending host := by
  unfold RouteCache.HasPending RouteCache.push RouteCache.put
  dsimp only
  refine exists_congr fun j => and_congr_right fun hj => ?_
  rw [Function.update_of_ne (by omega)]

end Push

/-- A change of an entry that keeps its host. -/
theorem put_hosts {re : RouteEntry} (hre : re.hostIp = (r.list i).hostIp) (j : ℤ) :
    ((r.put i re).list j).hostIp = (r.list j).hostIp := by
  unfold RouteCache.put
  dsimp only
  rw [Function.update_apply]
  split_ifs with h
  · rw [hre, h]
  · rfl

theorem put_holds {re : RouteEntry} {host gate : Dword} (hh : (r.put i re).Holds host gate) :
    r.Holds host gate ∨ re.hostIp = host ∧ re.gateIp = gate := by
  obtain ⟨j, hj, rfl, rfl⟩ := hh
  unfold RouteCache.put
  dsimp only
  by_cases hji : j = i
  · rw [hji, Function.update_self]
    exact .inr ⟨rfl, rfl⟩
  · rw [Function.update_of_ne hji]
    exact .inl ⟨j, hj, rfl, rfl⟩

section Turn

variable (ho : s.routes.Ordered) (hu : s.routes.NoTwice) (hi : s.routes.firstPending ≤ i)
  (hit : i < routeTopOfCache)
include ho hi hit

variable (e gates) in
/-- A turn keeps the order, does not touch the dynamic entries and leads on. -/
theorem checkPendingRoute_frame :
    (checkPendingRoute e gates s i).1.routes.Ordered ∧
    (checkPendingRoute e gates s i).1.routes.firstPending ≤ (checkPendingRoute e gates s i).2 ∧
    (checkPendingRoute e gates s i).2 ≤ i + 1 ∧
    s.routes.firstFree ≤ (checkPendingRoute e gates s i).1.routes.firstFree ∧
    ∀ j, j < s.routes.firstFree ∨ i < j →
      (checkPendingRoute e gates s i).1.routes.list j = s.routes.list j := by
  have h₁ := ho.free
  have h₂ := ho.pending
  obtain ⟨hp, hf, hle⟩ := dropPending_index hi
  have hdrop := dropPending_ordered ho hi hit
  have hnext : (s.routes.dropPending i).2 ≤ i + 1 := by
    unfold RouteCache.dropPending
    split_ifs <;> dsimp only <;> omega
  obtain ⟨-, -, hr, hn⟩ | ⟨-, heq⟩ | ⟨-, hr, hn⟩ | ⟨gw, -, heq⟩ :=
    checkPendingRoute_cases e gates s i
  · rw [hr, hn]
    refine ⟨⟨?_, ?_, hdrop.top⟩, hle, hnext, ?_, fun j hj => ?_⟩
    · dsimp only [RouteCache.put]
      omega
    · dsimp only [RouteCache.put]
      omega
    · dsimp only [RouteCache.put]
      omega
    · dsimp only [RouteCache.put]
      rw [Function.update_of_ne (by omega), dropPending_list hi (by omega)]
  · rw [heq]
    exact ⟨ho, by dsimp only; omega, le_rfl, le_rfl, fun _ _ => rfl⟩
  · rw [hr, hn]
    exact ⟨hdrop, hle, hnext, hf.ge, fun j hj => dropPending_list hi (by omega)⟩
  · rw [heq]
    refine ⟨⟨h₁, h₂, ho.top⟩, by dsimp only [RouteCache.put]; omega, le_rfl, le_rfl, fun j hj => ?_⟩
    dsimp only [RouteCache.put]
    rw [Function.update_of_ne (by omega)]

/-- A turn makes no route but by a fail-over. -/
theorem checkPendingRoute_holds {host gate : Dword}
    (hh : (checkPendingRoute e gates s i).1.routes.Holds host gate) :
    s.routes.Holds host gate ∨ ∃ gw, failOver e gates s i = some gw ∧
      (s.routes.list i).hostIp = host ∧ gw.gateIp = gate := by
  have hlive : s.routes.Live i := .inr ⟨hi, hit⟩
  obtain ⟨-, -, hr, -⟩ | ⟨-, heq⟩ | ⟨-, hr, -⟩ | ⟨gw, hgw, heq⟩ :=
    checkPendingRoute_cases e gates s i
  · rw [hr] at hh
    obtain hh | ⟨rfl, rfl⟩ := push_holds hh
    · exact .inl (dropPending_holds ho hi hit hh)
    · exact .inl ⟨i, hlive, rfl, rfl⟩
  · rw [heq] at hh
    exact .inl hh
  · rw [hr] at hh
    exact .inl (dropPending_holds ho hi hit hh)
  · rw [heq] at hh
    exact (put_holds hh).imp_right fun h => ⟨gw, hgw, h⟩

include hu

variable (e gates) in
/-- **A turn** promotes a resolved entry, takes out a lost one and keeps the rest. -/
theorem checkPendingRoute_spec :
    (checkPendingRoute e gates s i).1.routes.NoTwice ∧
    (∀ host gate, (checkPendingRoute e gates s i).1.routes.Via host gate ↔ s.routes.Via host gate ∨
      Resolved s i ∧ (s.routes.list i).hostIp = host ∧ (s.routes.list i).gateIp = gate) ∧
    ∀ host, (checkPendingRoute e gates s i).1.routes.HasPending host ↔
      s.routes.HasPending host ∧
        ¬ ((Resolved s i ∨ Lost e gates s i) ∧ host = (s.routes.list i).hostIp) := by
  have h₁ := ho.free
  have h₂ := ho.pending
  have hfree := (dropPending_index hi).2.1
  have hroom := (dropPending_index hi).1
  have hnoTwice := dropPending_noTwice ho hu hi hit
  have hpending := dropPending_hasPending ho hu hi hit
  have hdynamic : ∀ host gate, (s.routes.dropPending i).1.Via host gate ↔
      s.routes.Via host gate := by
    intro host gate
    unfold RouteCache.Via
    rw [hfree]
    refine exists_congr fun j => and_congr_right fun _ => and_congr_right fun hjf => ?_
    rw [dropPending_list hi (by omega)]
  have hexcl : Failed s i → ¬ Resolved s i := by
    rintro ⟨hnone, -⟩ hres
    rw [Resolved, hnone] at hres
    cases hres
  obtain ⟨hres, -, hr, -⟩ | ⟨hwait, heq⟩ | ⟨hlost, hr, -⟩ | ⟨gw, hgw, heq⟩ :=
    checkPendingRoute_cases e gates s i
  · have hpush : (checkPendingRoute e gates s i).1.routes =
        (s.routes.dropPending i).1.push { s.routes.list i with pending := false } := hr
    rw [hpush]
    refine ⟨push_noTwice hnoTwice fun j hj => dropPending_absent ho hu hi hit hj,
      fun host gate => ?_, fun host => ?_⟩
    · rw [push_via (by omega), hdynamic, and_iff_right hres]
    · rw [push_hasPending (by omega), hpending]
      exact and_congr_right fun _ => (not_congr (and_iff_right (.inl hres))).symm
  · have hno : ¬ (Resolved s i ∨ Lost e gates s i) := by
      rintro (hres | ⟨hf, -⟩)
      · rw [Resolved, hwait.1] at hres
        cases hres
      · have hpend := hwait.2.symm.trans hf.2
        cases hpend
    rw [heq]
    exact ⟨hu, fun host gate => by tauto, fun host => by tauto⟩
  · have hno : ¬ Resolved s i := hexcl hlost.1
    rw [hr]
    refine ⟨hnoTwice, fun host gate => ?_, fun host => ?_⟩
    · rw [hdynamic]
      tauto
    · rw [hpending]
      exact and_congr_right fun _ => (not_congr (and_iff_right (.inr hlost))).symm
  · obtain ⟨hf, hnext⟩ := failOver_eq_some.mp hgw
    have hno : ¬ (Resolved s i ∨ Lost e gates s i) := by
      rintro (hres | ⟨-, hnone⟩)
      · exact hexcl hf hres
      · rw [hnext] at hnone
        cases hnone
    have hosts : ∀ j, ((s.routes.put i
        { s.routes.list i with gateIp := gw.gateIp, movedOn := true }).list j).hostIp =
        (s.routes.list j).hostIp := put_hosts rfl
    rw [heq]
    refine ⟨hu.congr fun j _ => hosts j, fun host gate => ?_, fun host => ?_⟩
    · -- a pending entry is not among the dynamic ones
      rw [or_iff_left fun h => hno (.inl h.1)]
      refine exists_congr fun j => and_congr_right fun _ => and_congr_right fun hjf => ?_
      dsimp only [RouteCache.put] at hjf ⊢
      rw [Function.update_of_ne (by omega)]
    · rw [and_iff_left fun h => hno h.1]
      refine exists_congr fun j => and_congr_right fun _ => and_congr_right fun _ => ?_
      rw [hosts]

end Turn

/-! ## The pass -/

/-- **The rule of the pass**: what holds of a pass that is over, and of a pass if it holds of the one
behind its first turn. -/
theorem checkPendingRoutes_rule (e : Env) (gates : List GateEntry) {P : RouteState → ℤ → List (RouteState × ℤ) → RouteState → Prop}
    (done : ∀ s i, routeTopOfCache ≤ i → P s i [] s)
    (turn : ∀ s i ts r, s.routes.Ordered → s.routes.firstPending ≤ i → i < routeTopOfCache →
      P (checkPendingRoute e gates s i).1 (checkPendingRoute e gates s i).2 ts r →
        P s i ((s, i) :: ts) r)
    (ho : s.routes.Ordered) (hi : s.routes.firstPending ≤ i) :
    P s i (turns e gates s i) (checkPendingRoutes e gates s i) := by
  induction s, i using checkPendingRoutes.induct e gates with
  | case1 s i hit ih =>
    obtain ⟨ho', hi', -⟩ := checkPendingRoute_frame e gates ho hi hit
    unfold turns checkPendingRoutes
    rw [if_pos hit, if_pos hit]
    exact turn s i _ _ ho hi hit (ih ho' hi')
  | case2 s i hit =>
    unfold turns checkPendingRoutes
    rw [if_neg hit, if_neg hit]
    exact done s i (not_lt.mp hit)

/-- A pass keeps the order and does not touch the dynamic entries. -/
theorem checkPendingRoutes_frame (e : Env) (gates : List GateEntry) (ho : s.routes.Ordered) (hi : s.routes.firstPending ≤ i) :
    (checkPendingRoutes e gates s i).routes.Ordered ∧
    s.routes.firstFree ≤ (checkPendingRoutes e gates s i).routes.firstFree ∧
    ∀ j, j < s.routes.firstFree →
      (checkPendingRoutes e gates s i).routes.list j = s.routes.list j := by
  refine checkPendingRoutes_rule e gates (P := fun s _ _ r => s.routes.Ordered → r.routes.Ordered ∧
    s.routes.firstFree ≤ r.routes.firstFree ∧
    ∀ j, j < s.routes.firstFree → r.routes.list j = s.routes.list j) ?_ ?_ ho hi ho
  · exact fun s _ _ ho => ⟨ho, le_rfl, fun _ _ => rfl⟩
  · intro s i ts r ho hi hit ih _
    obtain ⟨ho', -, -, hle, hlist⟩ := checkPendingRoute_frame e gates ho hi hit
    obtain ⟨ih₁, ih₂, ih₃⟩ := ih ho'
    exact ⟨ih₁, hle.trans ih₂, fun j hj => (ih₃ j (by omega)).trans (hlist j (.inl hj))⟩

/-- A pass makes no route but by the fail-overs of its turns. -/
theorem checkPendingRoutes_holds {host gate : Dword} (ho : s.routes.Ordered)
    (hi : s.routes.firstPending ≤ i)
    (hh : (checkPendingRoutes e gates s i).routes.Holds host gate) :
    s.routes.Holds host gate ∨ ∃ t ∈ turns e gates s i, ∃ gw,
      failOver e gates t.1 t.2 = some gw ∧ turnHost t = host ∧ gw.gateIp = gate := by
  refine checkPendingRoutes_rule e gates (P := fun s _ ts r => r.routes.Holds host gate →
    s.routes.Holds host gate ∨ ∃ t ∈ ts, ∃ gw,
      failOver e gates t.1 t.2 = some gw ∧ turnHost t = host ∧ gw.gateIp = gate) ?_ ?_ ho hi hh
  · exact fun _ _ _ => .inl
  · intro s i ts r ho hi hit ih hh
    obtain hh | ⟨t, ht, hgw⟩ := ih hh
    · refine (checkPendingRoute_holds ho hi hit hh).imp_right fun ⟨gw, hgw⟩ => ?_
      exact ⟨(s, i), List.mem_cons_self .., gw, hgw⟩
    · exact .inr ⟨t, List.mem_cons_of_mem _ ht, hgw⟩

/-- A turn is about a host the cache holds. -/
theorem turns_holds {t : RouteState × ℤ} (ho : s.routes.Ordered) (hi : s.routes.firstPending ≤ i)
    (ht : t ∈ turns e gates s i) : ∃ gate, s.routes.Holds (turnHost t) gate := by
  refine checkPendingRoutes_rule e gates (P := fun s _ ts _ => ∀ t ∈ ts,
    ∃ gate, s.routes.Holds (turnHost t) gate) ?_ ?_ ho hi t ht
  · exact fun _ _ _ => nofun
  · intro s i ts r ho hi hit ih t ht
    have hlive : s.routes.Live i := .inr ⟨hi, hit⟩
    rcases List.mem_cons.mp ht with rfl | ht
    · exact ⟨_, i, hlive, rfl, rfl⟩
    · obtain ⟨gate, hh⟩ := ih t ht
      obtain hh | ⟨gw, -, hhost, -⟩ := checkPendingRoute_holds ho hi hit hh
      · exact ⟨gate, hh⟩
      · exact ⟨_, i, hlive, hhost, rfl⟩

/-- Every pending entry from where the pass stands has its turn. -/
theorem turns_host (e : Env) (gates : List GateEntry) (ho : s.routes.Ordered) (hi : s.routes.firstPending ≤ i) (hij : i ≤ j)
    (hj : j < routeTopOfCache) :
    ∃ t ∈ turns e gates s i, turnHost t = (s.routes.list j).hostIp := by
  refine checkPendingRoutes_rule e gates (P := fun s i ts _ => i ≤ j →
    ∃ t ∈ ts, turnHost t = (s.routes.list j).hostIp) ?_ ?_ ho hi hij
  · intro s i hit hij
    omega
  · intro s i ts r ho hi hit ih hij
    obtain ⟨-, -, hle, -, hlist⟩ := checkPendingRoute_frame e gates ho hi hit
    rcases eq_or_lt_of_le hij with rfl | hlt
    · exact ⟨(s, i), List.mem_cons_self .., rfl⟩
    · obtain ⟨t, ht, hhost⟩ := ih (by omega)
      exact ⟨t, List.mem_cons_of_mem _ ht, hhost.trans (congrArg _ (hlist j (.inr hlt)))⟩

/-- **The pass over the pending entries**: the hosts whose gateway is resolved at a turn are
promoted, those that are lost at a turn are gone, and the others are kept. -/
theorem checkPendingRoutes_spec (e : Env) (gates : List GateEntry) (ho : s.routes.Ordered) (hu : s.routes.NoTwice)
    (hi : s.routes.firstPending ≤ i) :
    (checkPendingRoutes e gates s i).routes.NoTwice ∧
    (∀ host gate, (checkPendingRoutes e gates s i).routes.Via host gate ↔ s.routes.Via host gate ∨
      ∃ t ∈ turns e gates s i, Resolved t.1 t.2 ∧ turnHost t = host ∧ turnGate t = gate) ∧
    ∀ host, (checkPendingRoutes e gates s i).routes.HasPending host ↔ s.routes.HasPending host ∧
      ¬ ∃ t ∈ turns e gates s i, turnHost t = host ∧
        (Resolved t.1 t.2 ∨ Lost e gates t.1 t.2) := by
  refine checkPendingRoutes_rule e gates (P := fun s _ ts r => s.routes.NoTwice → r.routes.NoTwice ∧
    (∀ host gate, r.routes.Via host gate ↔ s.routes.Via host gate ∨
      ∃ t ∈ ts, Resolved t.1 t.2 ∧ turnHost t = host ∧ turnGate t = gate) ∧
    ∀ host, r.routes.HasPending host ↔ s.routes.HasPending host ∧
      ¬ ∃ t ∈ ts, turnHost t = host ∧ (Resolved t.1 t.2 ∨ Lost e gates t.1 t.2)) ?_ ?_ ho hi hu
  · exact fun s _ _ hu => ⟨hu, fun host gate => by simp, fun host => by simp⟩
  · intro s i ts r ho hi hit ih hu
    obtain ⟨hu', hdyn, hpend⟩ := checkPendingRoute_spec e gates ho hu hi hit
    obtain ⟨ih₁, ih₂, ih₃⟩ := ih hu'
    refine ⟨ih₁, fun host gate => ?_, fun host => ?_⟩
    · rw [ih₂, hdyn, or_assoc, List.exists_mem_cons_iff]
      rfl
    · rw [ih₃, hpend, and_assoc, List.exists_mem_cons_iff, not_or, eq_comm (a := host),
        and_comm (b := _ = host)]
      rfl

/-! ## The dynamic entries -/

/-- The dynamic entry `i` has given way to the top one, and flags may have changed. -/
structure GaveWay (r r' : RouteCache) (i : ℤ) : Prop where
  free : r'.firstFree = r.firstFree - 1
  pending : r'.firstPending = r.firstPending
  host : ∀ j, (r'.list j).hostIp = (move r.list i (r.firstFree - 1) j).hostIp
  gate : ∀ j, (r'.list j).gateIp = (move r.list i (r.firstFree - 1) j).gateIp

/-- **The rule of the check of the dynamic entries.** -/
theorem checkDynamicRoutes_rule {c : ArpCache} {P : RouteCache → ℤ → RouteCache → Prop}
    (done : ∀ r i, r.firstFree ≤ i → P r i r)
    (kept : ∀ r i r', i < r.firstFree → (lanLookup c (r.list i).gateIp).isSome = true →
      P r (i + 1) r' → P r i r')
    (dropped : ∀ r i r₁ r', 0 ≤ i → i < r.firstFree → lanLookup c (r.list i).gateIp = none →
      GaveWay r r₁ i → P r₁ (if i < r.firstFree - 1 then i else i + 1) r' → P r i r')
    (hi : 0 ≤ i) : P r i (checkDynamicRoutes c r i) := by
  induction r, i using checkDynamicRoutes.induct c with
  | case1 r i hif hlan ih =>
    unfold checkDynamicRoutes
    rw [if_pos hif, if_pos hlan]
    exact kept r i _ hif hlan (ih (by omega))
  | case2 r i hif hlan r' hlt r'' ih =>
    unfold checkDynamicRoutes
    rw [if_pos hif, if_neg hlan]
    dsimp only
    rw [if_pos hlt]
    refine dropped r i
      (if 1 ≤ i - 1 then r''.put (i - 1) { r''.list (i - 1) with used := false } else r'') _ hi hif
      (Option.not_isSome_iff_eq_none.mp hlan) ?_ ?_
    swap
    · rw [if_pos (show i < r.firstFree - 1 from hlt)]
      exact ih hi
    split_ifs with hone
    · have hput : ∀ j, ((r''.put (i - 1) { r''.list (i - 1) with used := false }).list j).hostIp =
          (r''.list j).hostIp := put_hosts rfl
      refine ⟨rfl, rfl, hput, fun j => ?_⟩
      unfold RouteCache.put
      dsimp only
      rw [Function.update_apply]
      split_ifs with hj
      · rw [hj]
        rfl
      · rfl
    · exact ⟨rfl, rfl, fun _ => rfl, fun _ => rfl⟩
  | case3 r i hif hlan r' hlt ih =>
    have hlast : i = r.firstFree - 1 := by
      dsimp only [r'] at hlt
      omega
    unfold checkDynamicRoutes
    rw [if_pos hif, if_neg hlan]
    dsimp only
    rw [if_neg hlt]
    refine dropped r i r' _ hi hif (Option.not_isSome_iff_eq_none.mp hlan) ?_ ?_
    swap
    · rw [if_neg (show ¬ i < r.firstFree - 1 from hlt)]
      exact ih (by omega)
    exact ⟨rfl, rfl, fun j => by rw [hlast, move_self], fun j => by rw [hlast, move_self]⟩
  | case4 r i hif =>
    unfold checkDynamicRoutes
    rw [if_neg hif]
    exact done r i (not_lt.mp hif)

section GaveWay

variable {r' : RouteCache} {host gate : Dword} (h : GaveWay r r' i)
include h

theorem GaveWay.ordered (ho : r.Ordered) (hi : 0 ≤ i) (hif : i < r.firstFree) : r'.Ordered :=
  ⟨by have := h.free; omega, by have := h.free; have := h.pending; have := ho.pending; omega,
    h.pending ▸ ho.top⟩

theorem GaveWay.live (ho : r.Ordered) (hj : r'.Live j) : r.Live j ∧ j ≠ r.firstFree - 1 := by
  have h₁ := h.free
  have h₂ := h.pending
  have h₃ := ho.pending
  unfold RouteCache.Live at hj ⊢
  omega

theorem GaveWay.noTwice (ho : r.Ordered) (hu : r.NoTwice) (hi : 0 ≤ i) (hif : i < r.firstFree) :
    r'.NoTwice := by
  have hmove : Distinct RouteEntry.hostIp r'.Live (move r.list i (r.firstFree - 1)) :=
    Distinct.move hu (.inl ⟨by omega, by omega⟩) fun j hj _ => h.live ho hj
  exact hmove.congr fun j _ => h.host j

theorem GaveWay.holds (ho : r.Ordered) (hi : 0 ≤ i) (hif : i < r.firstFree)
    (hh : r'.Holds host gate) : r.Holds host gate := by
  obtain ⟨j, hj, rfl, rfl⟩ := hh
  rw [h.host, h.gate]
  by_cases hji : j = i
  · exact ⟨r.firstFree - 1, .inl ⟨by omega, by omega⟩, by rw [move_apply, if_pos hji],
      by rw [move_apply, if_pos hji]⟩
  · exact ⟨j, (h.live ho hj).1, by rw [move_apply, if_neg hji], by rw [move_apply, if_neg hji]⟩

theorem GaveWay.hasPending (ho : r.Ordered) (hif : i < r.firstFree) :
    r'.HasPending host ↔ r.HasPending host := by
  have h₃ := ho.pending
  unfold RouteCache.HasPending
  rw [h.pending]
  refine exists_congr fun j => and_congr_right fun hj => and_congr_right fun _ => ?_
  rw [h.host, move_apply, if_neg (by omega)]

end GaveWay

/-- The check keeps the sections and makes no route. -/
theorem checkDynamicRoutes_frame {c : ArpCache} (ho : r.Ordered) (hi : 0 ≤ i) :
    (checkDynamicRoutes c r i).Ordered ∧ (r.NoTwice → (checkDynamicRoutes c r i).NoTwice) ∧
    (∀ host, (checkDynamicRoutes c r i).HasPending host ↔ r.HasPending host) ∧
    ∀ host gate, (checkDynamicRoutes c r i).Holds host gate → r.Holds host gate := by
  refine checkDynamicRoutes_rule (P := fun r _ r' => r.Ordered → r'.Ordered ∧
    (r.NoTwice → r'.NoTwice) ∧ (∀ host, r'.HasPending host ↔ r.HasPending host) ∧
    ∀ host gate, r'.Holds host gate → r.Holds host gate) ?_ ?_ ?_ hi ho
  · exact fun r _ _ ho => ⟨ho, id, fun _ => Iff.rfl, fun _ _ => id⟩
  · exact fun r i r' _ _ ih => ih
  · intro r i r₁ r' hi hif _ hg ih ho
    obtain ⟨ih₁, ih₂, ih₃, ih₄⟩ := ih (hg.ordered ho hi hif)
    exact ⟨ih₁, fun hu => ih₂ (hg.noTwice ho hu hi hif),
      fun host => (ih₃ host).trans (hg.hasPending ho hif),
      fun host gate hh => hg.holds ho hi hif (ih₄ host gate hh)⟩

/-- **The check of the dynamic entries** keeps the routes whose gateway is in the ARP cache. -/
theorem checkDynamicRoutes_via {c : ArpCache} {host gate : Dword} :
    (checkDynamicRoutes c r 0).Via host gate ↔
      r.Via host gate ∧ (lanLookup c gate).isSome = true := by
  -- the entries behind are known to be resolved
  refine checkDynamicRoutes_rule (c := c) (P := fun r i r' =>
    (∀ j, 0 ≤ j → j < i → j < r.firstFree → (lanLookup c (r.list j).gateIp).isSome = true) →
    (r'.Via host gate ↔ r.Via host gate ∧ (lanLookup c gate).isSome = true)) ?_ ?_ ?_ le_rfl
    fun j hj hj' => by omega
  · intro r i hi hres
    refine iff_self_and.mpr ?_
    rintro ⟨j, hj, hjf, -, rfl⟩
    exact hres j hj (by omega) hjf
  · intro r i r' hif hlan ih hres
    refine ih fun j hj hji hjf => ?_
    rcases eq_or_ne j i with rfl | hne
    · exact hlan
    · exact hres j hj (by omega) hjf
  · intro r i r₁ r' hi hif hlan hg ih hres
    have h₁ := hg.free
    have hprev : ∀ j, 0 ≤ j → j < (if i < r.firstFree - 1 then i else i + 1) → j < r₁.firstFree →
        (lanLookup c (r₁.list j).gateIp).isSome = true := by
      intro j hj hji hjf
      have hlt : j < i := by split_ifs at hji <;> omega
      rw [hg.gate, move_apply, if_neg (by omega)]
      exact hres j hj hlt (by omega)
    rw [ih hprev]
    refine and_congr_left fun hsome => ⟨?_, ?_⟩
    · rintro ⟨j, hj, hjf, rfl, rfl⟩
      rw [hg.host, hg.gate]
      by_cases hji : j = i
      · exact ⟨r.firstFree - 1, by omega, by omega, by rw [move_apply, if_pos hji],
          by rw [move_apply, if_pos hji]⟩
      · exact ⟨j, hj, by omega, by rw [move_apply, if_neg hji], by rw [move_apply, if_neg hji]⟩
    · rintro ⟨j, hj, hjf, rfl, rfl⟩
      have hji : j ≠ i := by
        rintro rfl
        rw [hlan] at hsome
        cases hsome
      by_cases hlast : j = r.firstFree - 1
      · refine ⟨i, hi, by omega, ?_, ?_⟩
        · rw [hg.host, move_apply, if_pos rfl, hlast]
        · rw [hg.gate, move_apply, if_pos rfl, hlast]
      · refine ⟨j, hj, by omega, ?_, ?_⟩
        · rw [hg.host, move_apply, if_neg hji]
        · rw [hg.gate, move_apply, if_neg hji]

/-! ## New slots -/

section NewSlot

variable {host gate mask h g : Dword}

/-- The entry `re` goes before the pending ones. -/
def RouteCache.pushPending (r : RouteCache) (re : RouteEntry) : RouteCache :=
  RouteCache.put { r with firstPending := r.firstPending - 1 } (r.firstPending - 1) re

theorem pushPending_live {re : RouteEntry} (hj : (r.pushPending re).Live j) :
    j = r.firstPending - 1 ∨ r.Live j := by
  unfold RouteCache.Live RouteCache.pushPending RouteCache.put at *
  dsimp only at hj
  omega

theorem pushPending_noTwice {re : RouteEntry} (hu : r.NoTwice)
    (hnew : ∀ j, r.Live j → (r.list j).hostIp ≠ re.hostIp) : (r.pushPending re).NoTwice :=
  Distinct.put hu (fun j hj _ => hnew j hj) fun _ => pushPending_live

theorem pushPending_holds {re : RouteEntry} (hh : (r.pushPending re).Holds h g) :
    r.Holds h g ∨ re.hostIp = h ∧ re.gateIp = g := by
  obtain ⟨j, hj, rfl, rfl⟩ := hh
  by_cases hjp : j = r.firstPending - 1
  · refine .inr ?_
    unfold RouteCache.pushPending RouteCache.put
    dsimp only
    rw [hjp, Function.update_self]
    exact ⟨rfl, rfl⟩
  · refine .inl ⟨j, (pushPending_live hj).resolve_left hjp, ?_⟩
    unfold RouteCache.pushPending RouteCache.put
    dsimp only
    rw [Function.update_of_ne hjp]
    exact ⟨rfl, rfl⟩

/-- Where the new entry goes, after the top dynamic one has replaced the first one if need be. -/
theorem routeMakeNewSlot_cases (r : RouteCache) (host gate mask : Dword) :
    (r.firstPending ≤ r.firstFree ∧ r.firstFree ≤ 0 ∧ routeMakeNewSlot r host gate mask = (r, false)) ∨
    ∃ r₁ : RouteCache, (r₁ = r ∧ r.firstFree < r.firstPending ∨
        r.firstPending ≤ r.firstFree ∧ 0 < r.firstFree ∧ GaveWay r r₁ 0) ∧
      routeMakeNewSlot r host gate mask =
        (r₁.pushPending
          { hostIp := host, gateIp := gate, mask := mask, used := true, pending := true }, true) := by
  unfold routeMakeNewSlot
  dsimp only
  split_ifs with hroom hpos hlast
  · exact .inr ⟨r, .inl ⟨rfl, hroom⟩, rfl⟩
  · exact .inr ⟨{ r with firstFree := r.firstFree - 1 }.moveEntry 0 (r.firstFree - 1),
      .inr ⟨not_lt.mp hroom, hpos, ⟨rfl, rfl, fun _ => rfl, fun _ => rfl⟩⟩, rfl⟩
  · have hone : r.firstFree - 1 = 0 := by omega
    refine .inr ⟨{ r with firstFree := r.firstFree - 1 },
      .inr ⟨not_lt.mp hroom, hpos, ⟨rfl, rfl, ?_, ?_⟩⟩, rfl⟩
    · intro j
      rw [hone, move_self]
    · intro j
      rw [hone, move_self]
  · exact .inl ⟨not_lt.mp hroom, not_lt.mp hpos, rfl⟩

theorem routeMakeNewSlot_ordered (ho : r.Ordered) : (routeMakeNewSlot r host gate mask).1.Ordered := by
  have h₁ := ho.free
  have h₂ := ho.pending
  have h₃ := ho.top
  obtain ⟨-, -, heq⟩ | ⟨r₁, hr₁, heq⟩ := routeMakeNewSlot_cases r host gate mask <;> rw [heq]
  · exact ho
  · obtain ⟨rfl, hroom⟩ | ⟨hfull, hpos, hg⟩ := hr₁
    · exact ⟨h₁, by dsimp only [RouteCache.pushPending, RouteCache.put]; omega,
        by dsimp only [RouteCache.pushPending, RouteCache.put]; omega⟩
    · have hf := hg.free
      have hp := hg.pending
      refine ⟨?_, ?_, ?_⟩ <;> dsimp only [RouteCache.pushPending, RouteCache.put] <;> omega

/-- A new slot for a host that has none. -/
theorem routeMakeNewSlot_noTwice (ho : r.Ordered) (hu : r.NoTwice)
    (hnew : ∀ j, r.Live j → (r.list j).hostIp ≠ host) :
    (routeMakeNewSlot r host gate mask).1.NoTwice := by
  obtain ⟨-, -, heq⟩ | ⟨r₁, hr₁, heq⟩ := routeMakeNewSlot_cases r host gate mask <;> rw [heq]
  · exact hu
  · obtain ⟨rfl, -⟩ | ⟨-, hpos, hg⟩ := hr₁
    · exact pushPending_noTwice hu hnew
    · refine pushPending_noTwice (hg.noTwice ho hu le_rfl hpos) fun j hj heq => ?_
      obtain ⟨k, hk, hhost, -⟩ := hg.holds ho le_rfl hpos ⟨j, hj, heq, rfl⟩
      exact hnew k hk hhost

/-- What the cache holds then. -/
theorem routeMakeNewSlot_holds (ho : r.Ordered)
    (hh : (routeMakeNewSlot r host gate mask).1.Holds h g) :
    r.Holds h g ∨ host = h ∧ gate = g := by
  obtain ⟨-, -, heq⟩ | ⟨r₁, hr₁, heq⟩ := routeMakeNewSlot_cases r host gate mask <;> rw [heq] at hh
  · exact .inl hh
  · refine (pushPending_holds hh).imp_left fun hh => ?_
    obtain ⟨rfl, -⟩ | ⟨-, hpos, hg⟩ := hr₁
    · exact hh
    · exact hg.holds ho le_rfl hpos hh

end NewSlot

end Watt32.Arp
