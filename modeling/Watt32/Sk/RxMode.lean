import Watt32.Sk.Descriptors

/-!
# The receive mode

`mcast_set`, `promis_set` and `_pkt_forced_rxmode` decide when the mode of the driver is set.

* `RxLaw`: the mode that the open sockets and the joined groups ask for.
* `RxOk`: the steps after which the driver is in it.
* **`mode_follows`**: a run whose steps meet `RxOk` obeys the law throughout.
-/

namespace Watt32.Sk

open Machine

variable {cfg : Config} {t t' u : Table} {fd : ℕ} {s : Socket}

/-! ## The law -/

/-- A SOCK_PACKET socket is open. -/
def Table.hasPacket (t : Table) : Bool := t.skList.any fun s => s.soType = .packet

/-- An AF_INET6 socket is open. -/
def Table.hasInet6 (t : Table) : Bool := t.skList.any fun s => s.soFamily = .inet6

/-- A socket or a group needs more than the normal mode. -/
def Table.busy (t : Table) : Bool := t.hasPacket || t.hasInet6 || decide (0 < numMcastActive t)

/-- The mode of the driver is the one asked for. -/
structure RxLaw (t : Table) : Prop where
  packet : t.hasPacket = true → t.pktRxmode = rxmodePromiscous
  inet6 : t.hasInet6 = true → rxmodeMulticast2 ≤ t.pktRxmode
  groups : 0 < numMcastActive t → rxmodeMulticast1 ≤ t.pktRxmode
  normal : t.busy = false → t.pktRxmode = rxmodeBroadcast

/-- `pkt_set_rcv_mode` succeeds throughout the step. -/
def RxServed : Op → Prop
  | .socket e _ _ _ => e.rxOk = true
  | .accept e _ rxOk _ => e.rxOk = true ∧ rxOk = true
  | .close rxOk _ _ => rxOk = true
  | .daemon rxOk _ => rxOk = true
  | .join _ ok _ _ => ok = true
  | .leave _ ok _ _ => ok = true
  | .setLocal _ | .frame _ | .receive _ => True

instance RxServed.decidable : ∀ op, Decidable (RxServed op)
  | .socket e _ _ _ => inferInstanceAs (Decidable (e.rxOk = true))
  | .accept e _ rxOk _ => inferInstanceAs (Decidable (e.rxOk = true ∧ rxOk = true))
  | .close rxOk _ _ => inferInstanceAs (Decidable (rxOk = true))
  | .daemon rxOk _ => inferInstanceAs (Decidable (rxOk = true))
  | .join _ ok _ _ => inferInstanceAs (Decidable (ok = true))
  | .leave _ ok _ _ => inferInstanceAs (Decidable (ok = true))
  | .setLocal _ | .frame _ | .receive _ => .isTrue trivial

/-! ## The condition -/

/-- `socket` makes a socket, once its arguments are checked: the protocol suits the type, a descriptor
is free, and there is memory. -/
def Makes (cfg : Config) (e : SockEnv) (type : SockType) (family : Family) (protocol : ℤ) (t : Table) :
    Bool :=
  vacantFd t < cfg.maxSockets && e.callocSock &&
    match protoOf type protocol with
    | .ok proto => addOk e type proto family
    | .error _ => false

/-- `close_s` deletes the socket at once. -/
def closes (how : CloseHow) (s : Socket) : Bool :=
  match s.soType with
  | .packet | .raw => true
  | .dgram => !s.localAddr
  | .stream => how ≠ .already ∧ (how = .abort ∨ s.localAddr = false)

/-- A pass of `sock_daemon` deletes the socket. -/
def goes (gone : ℕ → Bool) (s : Socket) : Bool :=
  s.localAddr ∧ (s.soType = .stream ∨ s.soType = .dgram) ∧ gone s.fd

/-- All sockets that need more than the normal mode are among those of `p`, and no group does. -/
def OnlyNeeds (t : Table) (p : Socket → Bool) : Prop :=
  (∀ s ∈ t.skList, s.special = true → p s = true) ∧ numMcastActive t = 0

/-- The call leaves the group for good, and no other is joined. -/
def LastLeave (e : Igmp.CallEnv) (ip : Dword) (t : Table) : Prop :=
  Igmp.Acts e ip ∧ numMcastActive t ≤ 1 ∧
    ((Igmp.leaveSlot t.groups ip).any fun i => (t.groups.mcastList i).processes ≤ 1) = true

/-- The steps that keep the law. -/
def RxOk (cfg : Config) (t : Table) : Op → Prop
  | .socket e family (some type) protocol =>
    argsOk cfg family type protocol = true →
      if Makes cfg e (packetArgs family type).1 (packetArgs family type).2 protocol t then
        -- `promis_set` is not stale
        (packetArgs family type).1 = .packet → t.promisSet = false ∨ t.pktRxmode = rxmodePromiscous
      else
        -- the mode was not raised, or something else needs it
        (packetArgs family type).2 = .inet6 ∨ (packetArgs family type).1 = .packet ∧ t.promisSet = false →
          t.busy = true
  | .close _ how fd =>
    ∀ s ∈ t.find fd, s.special = true → closes how s = true → OnlyNeeds t (fun s' => s'.fd = fd) →
      t.pktForcedRxmode = none
  | .daemon _ gone =>
    (∃ s ∈ t.skList, s.special = true) → OnlyNeeds t (goes gone) → t.pktForcedRxmode = none
  | .join e _ answer ip => Igmp.linkJoins e ip t.groups = true → answer = .error → t.busy = true
  | .leave e _ _ ip => LastLeave e ip t → t.hasPacket = true ∨ t.hasInet6 = true
  | .socket _ _ none _ | .accept .. | .setLocal _ | .frame _ | .receive _ => True

instance OnlyNeeds.decidable (t : Table) (p : Socket → Bool) : Decidable (OnlyNeeds t p) :=
  inferInstanceAs (Decidable ((∀ s ∈ t.skList, s.special = true → p s = true) ∧ numMcastActive t = 0))

instance LastLeave.decidable (e : Igmp.CallEnv) (ip : Dword) (t : Table) : Decidable (LastLeave e ip t) :=
  inferInstanceAs (Decidable ((e.multicastOn = true ∧ Igmp.ip4IsMulticast ip = true) ∧ numMcastActive t ≤ 1 ∧
    ((Igmp.leaveSlot t.groups ip).any fun i => (t.groups.mcastList i).processes ≤ 1) = true))

instance RxOk.decidable (cfg : Config) (t : Table) : ∀ op, Decidable (RxOk cfg t op)
  | .socket e family (some type) protocol => by unfold RxOk; infer_instance
  | .close _ how fd => by unfold RxOk; infer_instance
  | .daemon _ gone => by unfold RxOk; infer_instance
  | .join e _ answer ip => by unfold RxOk; infer_instance
  | .leave e _ _ ip => by unfold RxOk; infer_instance
  | .socket _ _ none _ | .accept .. | .setLocal _ | .frame _ | .receive _ => .isTrue trivial

/-! ## Which sockets are open -/

theorem hasPacket_cons {l : List Socket} (h : t'.skList = s :: l) (hl : t.skList = l) :
    t'.hasPacket = (decide (s.soType = .packet) || t.hasPacket) := by
  rw [Table.hasPacket, h, List.any_cons, Table.hasPacket, hl]

theorem hasInet6_cons {l : List Socket} (h : t'.skList = s :: l) (hl : t.skList = l) :
    t'.hasInet6 = (decide (s.soFamily = .inet6) || t.hasInet6) := by
  rw [Table.hasInet6, h, List.any_cons, Table.hasInet6, hl]

theorem exists_special : (∃ s ∈ t.skList, s.special = true) ↔ t.hasPacket = true ∨ t.hasInet6 = true := by
  simp only [Table.hasPacket, Table.hasInet6, List.any_eq_true, Socket.special, decide_eq_true_eq]
  constructor
  · rintro ⟨s, hs, h6 | hp⟩
    · exact .inr ⟨s, hs, h6⟩
    · exact .inl ⟨s, hs, hp⟩
  · rintro (⟨s, hs, hp⟩ | ⟨s, hs, h6⟩)
    · exact ⟨s, hs, .inr hp⟩
    · exact ⟨s, hs, .inl h6⟩

theorem busy_iff : t.busy = true ↔ (∃ s ∈ t.skList, s.special = true) ∨ 0 < numMcastActive t := by
  rw [exists_special]
  simp [Table.busy]

/-- The same sockets and groups, under another mode. -/
structure SameNeeds (t t' : Table) : Prop where
  packet : t'.hasPacket = t.hasPacket
  inet6 : t'.hasInet6 = t.hasInet6
  groups : numMcastActive t' = numMcastActive t

/-- What a run keeps: the law, and `mcast_set` is not stale. -/
structure RxInv (t : Table) : Prop where
  law : RxLaw t
  mcast : t.mcastSet = true → rxmodeMulticast2 ≤ t.pktRxmode

theorem RxInv.congr (h : RxInv t) (hn : SameNeeds t t') (hmode : t'.pktRxmode = t.pktRxmode)
    (hmcast : t'.mcastSet = t.mcastSet) : RxInv t' := by
  have hbusy : t'.busy = t.busy := by rw [Table.busy, Table.busy, hn.packet, hn.inet6, hn.groups]
  refine ⟨⟨fun hp => ?_, fun h6 => ?_, fun hg => ?_, fun hb => ?_⟩, fun hm => ?_⟩
  · exact hmode.trans (h.law.packet (hn.packet ▸ hp))
  · exact hmode ▸ h.law.inet6 (hn.inet6 ▸ h6)
  · exact hmode ▸ h.law.groups (hn.groups ▸ hg)
  · exact hmode.trans (h.law.normal (hbusy ▸ hb))
  · exact hmode ▸ h.mcast (hmcast ▸ hm)

theorem numMcastActive_congr (h : t'.groups = t.groups) : numMcastActive t' = numMcastActive t := by
  rw [numMcastActive, h, numMcastActive]

theorem sameNeeds_of_list (hl : t'.skList = t.skList) (hg : t'.groups = t.groups) : SameNeeds t t' :=
  ⟨by rw [Table.hasPacket, hl, Table.hasPacket], by rw [Table.hasInet6, hl, Table.hasInet6],
    numMcastActive_congr hg⟩

theorem sameNeeds_of_map {f : Socket → Socket} (htype : ∀ s, (f s).soType = s.soType)
    (hfamily : ∀ s, (f s).soFamily = s.soFamily) (hl : t'.skList = t.skList.map f)
    (hg : t'.groups = t.groups) : SameNeeds t t' := by
  refine ⟨?_, ?_, numMcastActive_congr hg⟩
  · rw [Table.hasPacket, hl, List.any_map, Table.hasPacket]
    congr 1
    funext s
    simp [htype]
  · rw [Table.hasInet6, hl, List.any_map, Table.hasInet6]
    congr 1
    funext s
    simp [hfamily]

/-- The mode is raised while something needs it. -/
theorem RxInv.raise (h : RxInv t) (hn : SameNeeds t t')
    (hmode : t'.pktRxmode = t.pktRxmode ∨
      t.busy = true ∧ (t'.pktRxmode = rxmodePromiscous ∨
        t.pktRxmode ≤ t'.pktRxmode ∧ t'.pktRxmode < rxmodePromiscous))
    (hmcast : t'.mcastSet = true → rxmodeMulticast2 ≤ t'.pktRxmode) : RxInv t' := by
  have hbusy : t'.busy = t.busy := by rw [Table.busy, Table.busy, hn.packet, hn.inet6, hn.groups]
  refine ⟨⟨fun hp => ?_, fun h6 => ?_, fun hg => ?_, fun hb => ?_⟩, hmcast⟩
  · have := h.law.packet (hn.packet ▸ hp)
    omega
  · have := h.law.inet6 (hn.inet6 ▸ h6)
    simp only [rxmodePromiscous, rxmodeMulticast2] at *
    omega
  · have := h.law.groups (hn.groups ▸ hg)
    simp only [rxmodePromiscous, rxmodeMulticast1] at *
    omega
  · rw [hbusy] at hb
    rcases hmode with heq | ⟨hb', -⟩
    · exact heq.trans (h.law.normal hb)
    · rw [hb] at hb'
      exact absurd hb' Bool.false_ne_true

/-! ## `socket` -/

theorem sockSetMcastRxMode_served (hserial : cfg.pktserial = false) (t : Table) :
    (sockSetMcastRxMode cfg true t).2 = true ∧
    (sockSetMcastRxMode cfg true t).1.pktRxmode =
      (if t.mcastSet = false ∧ t.pktRxmode < rxmodeMulticast2 then rxmodeMulticast2 else t.pktRxmode) ∧
    (sockSetMcastRxMode cfg true t).1.mcastSet = true ∧
    (sockSetMcastRxMode cfg true t).1.promisSet = t.promisSet := by
  unfold sockSetMcastRxMode ip6PktInit pktSetRcvMode
  cases hm : t.mcastSet
  · by_cases hlt : t.pktRxmode < rxmodeMulticast2 <;> simp [hserial, hlt]
  · simp

theorem sockSetPromiscRxMode_served (t : Table) :
    (sockSetPromiscRxMode true t).2 = true ∧
    (sockSetPromiscRxMode true t).1.pktRxmode =
      (if t.promisSet = false then rxmodePromiscous else t.pktRxmode) ∧
    (sockSetPromiscRxMode true t).1.mcastSet = t.mcastSet := by
  unfold sockSetPromiscRxMode pktSetRcvMode
  cases t.promisSet <;> simp

/-- What `set_proto` does when `pkt_set_rcv_mode` succeeds. -/
theorem setProto_served {e : SockEnv} (hserial : cfg.pktserial = false) (hok : e.rxOk = true)
    {isIp6 : Bool} (h6 : isIp6 = true → cfg.useIpv6 = true) (type : SockType) (protocol : ℤ) (t : Table) :
    (setProto cfg e type isIp6 protocol t).2 = protoOf type protocol ∧
    (setProto cfg e type isIp6 protocol t).1.pktRxmode =
      (if type = .packet ∧ t.promisSet = false then rxmodePromiscous
      else if isIp6 = true ∧ t.mcastSet = false ∧ t.pktRxmode < rxmodeMulticast2 then rxmodeMulticast2
      else t.pktRxmode) ∧
    (setProto cfg e type isIp6 protocol t).1.mcastSet = (t.mcastSet || isIp6) := by
  have hr : ∃ m, (if cfg.useIpv6 = true ∧ isIp6 = true then sockSetMcastRxMode cfg e.rxOk t else (t, true)) =
      (m, true) ∧ m.mcastSet = (t.mcastSet || isIp6) ∧ m.promisSet = t.promisSet ∧ m.pktRxmode =
        if isIp6 = true ∧ t.mcastSet = false ∧ t.pktRxmode < rxmodeMulticast2 then rxmodeMulticast2
        else t.pktRxmode := by
    cases hi : isIp6
    · exact ⟨t, by simp, by simp, rfl, by simp⟩
    · obtain ⟨h₁, h₂, h₃, h₄⟩ := sockSetMcastRxMode_served hserial t
      refine ⟨(sockSetMcastRxMode cfg true t).1, ?_, by simpa using h₃, h₄, by simpa using h₂⟩
      rw [if_pos ⟨h6 hi, rfl⟩, hok]
      exact Prod.ext rfl h₁
  obtain ⟨m, hm, hmcast, hpromis, hmode⟩ := hr
  simp only [setProto, hm, Bool.true_eq_false, if_false]
  by_cases hp : type = .packet
  · obtain ⟨h₁, h₂, h₃⟩ := sockSetPromiscRxMode_served m
    rw [if_pos hp, hok]
    refine ⟨by simp [h₁], ?_, h₃.trans hmcast⟩
    rw [h₂, hpromis, hmode]
    simp [hp]
  · rw [if_neg hp, if_neg fun h => hp h.1]
    exact ⟨rfl, hmode, hmcast⟩

/-- A socket is linked, or is not, after the mode was raised for it. -/
theorem rxInv_socketCall (h : RxInv t) (hserial : cfg.pktserial = false) {e : SockEnv}
    (hok : e.rxOk = true) (family : Family) (type : Option SockType) (protocol : ℤ)
    (hcond : RxOk cfg t (.socket e family type protocol)) :
    RxInv (socketCall cfg e family type protocol t).1 := by
  rcases socketCall_cases cfg e family type protocol t with
    ⟨err, -, heq⟩ | ⟨type', type'', family', rfl, hargs, hpacket, hend⟩
  · rw [heq]
    exact h
  have h6 : decide (family' = .inet6) = true → cfg.useIpv6 = true := by
    intro h6
    simp only [argsOk, decide_eq_true_eq] at hargs h6
    exact hargs.2.1 (packetArgs_inet6 (h6 ▸ hpacket))
  replace hcond := hcond hargs
  rw [hpacket] at hcond
  dsimp only at hcond
  obtain ⟨hres, hmode, hmcast⟩ := setProto_served hserial hok h6 type'' protocol t
  have hm := onlyModes_setProto cfg e type'' (family' = .inet6) protocol t
  generalize setProto cfg e type'' (family' = .inet6) protocol t = r at hend hres hmode hmcast hm
  have hinet6 : family' = .inet6 → rxmodeMulticast2 ≤ r.1.pktRxmode := by
    intro hf
    rw [hmode]
    split_ifs with hp hlow
    · exact Nat.le_succ _
    · exact le_rfl
    · by_contra hlt
      refine hlow ⟨by simpa using hf, ?_, by omega⟩
      by_contra hset
      exact hlt (h.mcast (by simpa using hset))
  have hmcast' : r.1.mcastSet = true → rxmodeMulticast2 ≤ r.1.pktRxmode := by
    intro hset
    rw [hmcast, Bool.or_eq_true, decide_eq_true_eq] at hset
    rcases hset with hset | hf
    · have := h.mcast hset
      rw [hmode]
      split_ifs
      · exact Nat.le_succ _
      · exact le_rfl
      · exact this
    · exact hinet6 hf
  -- a call that makes no socket
  have hfail : ∀ u : Table, u.skList = t.skList → SameModes r.1 u →
      Makes cfg e type'' family' protocol t = false → RxInv u := by
    intro u hlist hu hno
    refine h.raise (sameNeeds_of_list hlist (hu.groups.trans hm.groups)) ?_
      (by rw [hu.mcastSet, hu.pktRxmode]; exact hmcast')
    rw [if_neg (by simp [hno])] at hcond
    rw [hu.pktRxmode, hmode]
    split_ifs with hp hlow
    · exact .inr ⟨hcond (.inr hp), .inl rfl⟩
    · exact .inr ⟨hcond (.inl (by simpa using hlow.1)), .inr ⟨hlow.2.2.le, Nat.lt_succ_self _⟩⟩
    · exact .inl rfl
  rcases hend with ⟨err, herr, heq⟩ | ⟨proto, hproto, heq⟩
  · rw [heq]
    refine hfail r.1 hm.skList ⟨rfl, rfl, rfl, rfl, rfl, rfl⟩ ?_
    rw [Makes, ← hres, herr, Bool.and_false]
  · rw [heq]
    have hmakes : Makes cfg e type'' family' protocol t = true ↔
        vacantFd t < cfg.maxSockets ∧ Allocates e type'' proto family' := by
      rw [Makes, ← hres, hproto]
      simp [Allocates, and_assoc]
    rw [← vacantFd_congr hm] at hmakes
    have hend := socketAdd_outcome cfg e type'' proto family' r.1
    generalize (socketAdd cfg e type'' proto family' r.1).1 = u at hend ⊢
    generalize (socketAdd cfg e type'' proto family' r.1).2 = fd at hend
    cases hend with
    | full hfull =>
      refine hfail r.1 hm.skList ⟨rfl, rfl, rfl, rfl, rfl, rfl⟩ ?_
      simpa using fun hlt => hfull (hmakes.mp hlt).1
    | lost _ _ hadd hlist hmodes =>
      refine hfail u (hlist.trans hm.skList) hmodes ?_
      simpa using fun hlt => hadd (hmakes.mp hlt).2
    | made _ s hlt hadd hlist hmodes htype hfamily =>
      rw [if_pos (hmakes.mpr ⟨hlt, hadd⟩)] at hcond
      have hpackets := hasPacket_cons hlist hm.skList.symm
      have hinet6s := hasInet6_cons hlist hm.skList.symm
      have hgroups : numMcastActive u = numMcastActive t :=
        numMcastActive_congr (hmodes.groups.trans hm.groups)
      rw [htype] at hpackets
      rw [hfamily] at hinet6s
      refine ⟨⟨fun hp => ?_, fun hf => ?_, fun hg => ?_, fun hb => ?_⟩, ?_⟩
      · rw [hpackets, Bool.or_eq_true, decide_eq_true_eq] at hp
        rw [hmodes.pktRxmode, hmode]
        by_cases hpromis : type'' = .packet ∧ t.promisSet = false
        · rw [if_pos hpromis]
        · have hsix : t.pktRxmode = rxmodePromiscous := by
            rcases hp with hp | hp
            · exact (hcond hp).resolve_left fun hno => hpromis ⟨hp, hno⟩
            · exact h.law.packet hp
          rw [if_neg hpromis, if_neg (by simp [hsix, rxmodePromiscous, rxmodeMulticast2]), hsix]
      · rw [hinet6s, Bool.or_eq_true, decide_eq_true_eq] at hf
        rw [hmodes.pktRxmode]
        rcases hf with hf | hf
        · exact hinet6 hf
        · have := h.law.inet6 hf
          rw [hmode]
          split_ifs
          · exact Nat.le_succ _
          · exact le_rfl
          · exact this
      · have := h.law.groups (hgroups ▸ hg)
        rw [hmodes.pktRxmode, hmode]
        split_ifs
        · decide
        · decide
        · exact this
      · have hnone : type'' ≠ .packet ∧ family' ≠ .inet6 ∧ t.busy = false := by
          rw [Table.busy, hpackets, hinet6s, hgroups] at hb
          simp only [Bool.or_eq_false_iff, decide_eq_false_iff_not] at hb
          refine ⟨hb.1.1.1, hb.1.2.1, ?_⟩
          rw [Table.busy, hb.1.1.2, hb.1.2.2]
          simpa using hb.2
        rw [hmodes.pktRxmode, hmode, if_neg fun hno => hnone.1 hno.1,
          if_neg fun hno => hnone.2.1 (by simpa using hno.1)]
        exact h.law.normal hnone.2.2
      · rw [hmodes.mcastSet, hmodes.pktRxmode]
        exact hmcast'

/-! ## Deleting -/

/-- `_sock_set_normal_rx_mode` acts only when nothing else is left. -/
theorem sockSetNormalRxMode_cases (fd : ℕ) (t : Table) :
    sockSetNormalRxMode true fd t = t ∧ (0 < numMcastActive t ∨ ∃ s ∈ t.skList, s.fd ≠ fd ∧ s.special = true) ∨
    OnlyNeeds t (fun s => s.fd = fd) ∧ sockSetNormalRxMode true fd t = { t with
      pktRxmode := rxmodeBroadcast, pktForcedRxmode := some rxmodeBroadcast, mcastSet := false } := by
  unfold sockSetNormalRxMode
  by_cases hg : 0 < numMcastActive t
  · exact .inl ⟨if_pos hg, .inl hg⟩
  · rw [if_neg hg]
    by_cases hs : (t.skList.any fun s => s.fd ≠ fd && s.special) = true
    · rw [if_pos hs]
      refine .inl ⟨rfl, .inr ?_⟩
      simpa using hs
    · rw [if_neg hs]
      refine .inr ⟨⟨fun s hmem hspecial => ?_, by omega⟩, rfl⟩
      by_contra hne
      exact hs (List.any_eq_true.mpr ⟨s, hmem, by simpa [hspecial] using hne⟩)

/-- Sockets go, and what is left needs the mode as before. -/
theorem RxInv.drop (h : RxInv t) (hsub : ∀ s ∈ t'.skList, s ∈ t.skList)
    (hgroups : numMcastActive t' = numMcastActive t) (hbusy : t.busy = true → t'.busy = true)
    (hmode : t'.pktRxmode = t.pktRxmode) (hmcast : t'.mcastSet = t.mcastSet) : RxInv t' := by
  refine ⟨⟨fun hp => ?_, fun hf => ?_, fun hg => ?_, fun hb => ?_⟩, fun hset => ?_⟩
  · refine hmode.trans (h.law.packet ?_)
    obtain ⟨s, hs, hs'⟩ := List.any_eq_true.mp hp
    exact List.any_eq_true.mpr ⟨s, hsub s hs, hs'⟩
  · rw [hmode]
    obtain ⟨s, hs, hs'⟩ := List.any_eq_true.mp hf
    exact h.law.inet6 (List.any_eq_true.mpr ⟨s, hsub s hs, hs'⟩)
  · exact hmode ▸ h.law.groups (hgroups ▸ hg)
  · refine hmode.trans (h.law.normal ?_)
    by_contra hno
    rw [hbusy (by simpa using hno)] at hb
    exact absurd hb (by simp)
  · exact hmode ▸ h.mcast (hmcast ▸ hset)

theorem special_mode (h : RxLaw t) (hs : s ∈ t.skList) (hspecial : s.special = true) :
    rxmodeBroadcast < t.pktRxmode := by
  rcases exists_special.mp ⟨s, hs, hspecial⟩ with hp | hf
  · rw [h.packet hp]
    decide
  · exact lt_of_lt_of_le (by decide) (h.inet6 hf)

/-- The part of `_sock_del_fd` about the receive mode, under the law. -/
theorem delRxMode_cases (h : RxLaw t) (hs : s ∈ t.skList)
    (hcond : s.special = true → OnlyNeeds t (fun s' => s'.fd = s.fd) → t.pktForcedRxmode = none) :
    delRxMode true s t = t ∧ (s.special = true → 0 < numMcastActive t ∨
        ∃ s' ∈ t.skList, s'.fd ≠ s.fd ∧ s'.special = true) ∨
      OnlyNeeds t (fun s' => s'.fd = s.fd) ∧ delRxMode true s t = { t with
        pktRxmode := rxmodeBroadcast, pktForcedRxmode := some rxmodeBroadcast, mcastSet := false } := by
  unfold delRxMode
  by_cases hspecial : s.special = true
  · have hmode := special_mode h hs hspecial
    rcases sockSetNormalRxMode_cases s.fd t with ⟨heq, hleft⟩ | ⟨honly, heq⟩
    · refine .inl ⟨?_, fun _ => hleft⟩
      rw [heq, ite_self]
    · rw [if_pos ⟨hspecial, hmode, hcond hspecial honly⟩]
      exact .inr ⟨honly, heq⟩
  · exact .inl ⟨if_neg fun hno => hspecial hno.1, fun hno => absurd hno hspecial⟩

/-- A socket is deleted. -/
theorem rxInv_sockDelFd (hd : Descriptors cfg t) (h : RxInv t) (fd : ℕ)
    (hcond : ∀ s ∈ t.skList, s.fd = fd → s.special = true → OnlyNeeds t (fun s' => s'.fd = fd) →
      t.pktForcedRxmode = none) :
    RxInv (sockDelFd cfg true fd t) ∧ (sockDelFd cfg true fd t).groups = t.groups ∧
      ((∃ s ∈ (sockDelFd cfg true fd t).skList, s.special = true) →
        (sockDelFd cfg true fd t).pktForcedRxmode = t.pktForcedRxmode) := by
  have hlist := skList_sockDelFd hd true fd
  rcases sockDelFd_cases hd true fd with ⟨-, heq⟩ | ⟨s, hs, rfl, heq⟩
  · rw [heq]
    exact ⟨h, rfl, fun _ => rfl⟩
  -- the hook does not matter here
  have hw : ∃ w : Table, w = (if s.soType = .packet then sockPacketDel s t else t) ∧ w.skList = t.skList ∧
      SameModes t w := by
    refine ⟨_, rfl, ?_, ?_⟩
    · split_ifs <;> rfl
    · split_ifs <;> exact ⟨rfl, rfl, rfl, rfl, rfl, rfl⟩
  obtain ⟨w, hw, hwlist, hwmodes⟩ := hw
  rw [← hw] at heq
  obtain ⟨-, -, hu⟩ := sockCloseFd_same cfg s.fd (skListDel s.fd (delRxMode true s w))
  rw [← heq] at hu
  have hneeds : ∀ p, OnlyNeeds w p ↔ OnlyNeeds t p := fun p => by
    rw [OnlyNeeds, OnlyNeeds, hwlist, numMcastActive_congr hwmodes.groups]
  have hlaw : RxLaw w := (h.congr (sameNeeds_of_list hwlist hwmodes.groups) hwmodes.pktRxmode
    hwmodes.mcastSet).law
  have hgroups : (delRxMode true s w).groups = t.groups :=
    (onlyModes_delRxMode true s w).groups.trans hwmodes.groups
  have hmem (s') : s' ∈ (sockDelFd cfg true s.fd t).skList ↔ s' ∈ t.skList ∧ s'.fd ≠ s.fd := by
    rw [hlist, List.mem_filter, decide_eq_true_eq]
  have hnum : numMcastActive (sockDelFd cfg true s.fd t) = numMcastActive t :=
    numMcastActive_congr (hu.groups.trans hgroups)
  have hmodes : SameModes (delRxMode true s w) (sockDelFd cfg true s.fd t) :=
    ⟨hu.mcastSet, hu.promisSet, hu.pktRxmode, hu.pktForcedRxmode, hu.groups, hu.appGot⟩
  rcases delRxMode_cases hlaw (hwlist ▸ hs) (fun hspecial honly => hwmodes.pktForcedRxmode.trans
    (hcond s hs rfl hspecial ((hneeds _).mp honly))) with ⟨hdel, hleft⟩ | ⟨honly, hdel⟩
  · rw [hdel] at hmodes
    have hkept := hwmodes.trans hmodes
    refine ⟨h.drop (fun s' hs' => ((hmem s').mp hs').1) hnum (fun hb => busy_iff.mpr ?_)
      hkept.pktRxmode hkept.mcastSet, hkept.groups, fun _ => hkept.pktForcedRxmode⟩
    rcases busy_iff.mp hb with ⟨s', hs', hspecial⟩ | hg
    · by_cases hfd : s'.fd = s.fd
      · rw [hd.inj hs' hs hfd] at hspecial
        rcases hleft hspecial with hg | ⟨s'', hs'', hne, hspecial''⟩
        · right
          rwa [hnum, ← numMcastActive_congr hwmodes.groups]
        · exact .inl ⟨s'', (hmem s'').mpr ⟨hwlist ▸ hs'', hne⟩, hspecial''⟩
      · exact .inl ⟨s', (hmem s').mpr ⟨hs', hfd⟩, hspecial⟩
    · exact .inr (hnum ▸ hg)
  · have honly' := (hneeds _).mp honly
    have hnone : ¬ ∃ s' ∈ (sockDelFd cfg true s.fd t).skList, s'.special = true := by
      rintro ⟨s', hs', hspecial⟩
      have hs' := (hmem s').mp hs'
      exact hs'.2 (by simpa using honly'.1 s' hs'.1 hspecial)
    have hno := not_or.mp (exists_special.not.mp hnone)
    rw [hdel] at hmodes
    refine ⟨⟨⟨fun hp => absurd hp hno.1, fun hf => absurd hf hno.2, fun hg => ?_, fun _ => hmodes.pktRxmode⟩,
      fun hset => ?_⟩, hmodes.groups.trans hwmodes.groups, fun hspecial => absurd hspecial hnone⟩
    · rw [hnum, honly'.2] at hg
      exact absurd hg (lt_irrefl 0)
    · rw [hmodes.mcastSet] at hset
      exact absurd hset Bool.false_ne_true

/-! ## `accept`, `close_s` and `sock_daemon` -/

theorem rxInv_closeS (hd : Descriptors cfg t) (h : RxInv t) (how : CloseHow) (fd : ℕ)
    (hcond : RxOk cfg t (.close true how fd)) : RxInv (closeS cfg true how fd t) := by
  cases hfind : t.find fd with
  | none =>
    rw [closeS, hfind]
    exact h
  | some s =>
    have hfd : s.fd = fd := by simpa using List.find?_some hfind
    have hmem := List.mem_of_find?_eq_some hfind
    have heq : closeS cfg true how fd t = if closes how s then sockDelFd cfg true fd t else t := by
      rw [closeS, hfind]
      dsimp only
      unfold closes
      cases s.soType with
      | packet => rfl
      | raw => rfl
      | dgram => cases s.localAddr <;> rfl
      | stream => simp only [decide_eq_true_eq]
    rw [heq]
    split_ifs with hcloses
    · refine (rxInv_sockDelFd hd h fd fun s' hs' hfd' hspecial => ?_).1
      rw [hd.inj hs' hmem (hfd'.trans hfd.symm)] at hspecial
      exact hcond s hfind hspecial hcloses
    · exact h

/-- What a pass of `sock_daemon` that began at `t` keeps: the sockets that stay are there, and
`_pkt_forced_rxmode` is as it was while one of them needs the mode. -/
structure PassInv (gone : ℕ → Bool) (t u : Table) : Prop where
  rxInv : RxInv u
  groups : u.groups = t.groups
  stay : ∀ s ∈ t.skList, s.special = true → goes gone s = false → s ∈ u.skList
  forced : (∃ s ∈ u.skList, s.special = true) → u.pktForcedRxmode = t.pktForcedRxmode

theorem rxInv_sockDaemon (hd : Descriptors cfg t) (h : RxInv t) (gone : ℕ → Bool)
    (hcond : RxOk cfg t (.daemon true gone)) : RxInv (sockDaemon cfg true gone t) := by
  refine (sockDaemon_induct (J := PassInv gone t) hd ⟨h, rfl, fun s hs _ _ => hs, fun _ => rfl⟩ true gone
    fun u s hdu hu hs hlocal htype hgone hsub => ?_).2.rxInv
  have hgoes : goes gone s = true := by simp [goes, hlocal, htype, hgone]
  obtain ⟨hrx, hgroups, hforced⟩ := rxInv_sockDelFd hdu hu.rxInv s.fd <| by
    intro s' hs' hfd hspecial honly
    have hnone : OnlyNeeds t (goes gone) := by
      refine ⟨fun s'' hs'' hspecial'' => ?_, (numMcastActive_congr hu.groups) ▸ honly.2⟩
      by_contra hstay
      have hmem := hu.stay s'' hs'' hspecial'' (by simpa using hstay)
      have hfd'' : s''.fd = s.fd := by simpa using honly.1 s'' hmem hspecial''
      exact hstay (hd.inj hs'' hs hfd'' ▸ hgoes)
    exact (hu.forced ⟨s', hs', hspecial⟩).trans (hcond ⟨s', hsub s' hs', hspecial⟩ hnone)
  refine ⟨hrx, hgroups.trans hu.groups, fun s' hs' hspecial hstay => ?_, fun hex => ?_⟩
  · rw [skList_sockDelFd hdu, List.mem_filter]
    refine ⟨hu.stay s' hs' hspecial hstay, ?_⟩
    simp only [ne_eq, decide_eq_true_eq]
    intro hfd
    rw [hd.inj hs' hs hfd, hgoes] at hstay
    exact absurd hstay (by simp)
  · refine (hforced hex).trans (hu.forced ?_)
    obtain ⟨s', hs', hspecial⟩ := hex
    rw [skList_sockDelFd hdu] at hs'
    exact ⟨s', List.mem_of_mem_filter hs', hspecial⟩

theorem rxInv_setLocal (h : RxInv t) (fd : ℕ) : RxInv (setLocal fd t) :=
  h.congr (sameNeeds_of_map (f := fun s => if s.fd = fd then { s with localAddr := true } else s)
    (fun s => by split_ifs <;> rfl) (fun s => by split_ifs <;> rfl) rfl rfl) rfl rfl

/-- `accept` makes a stream socket of the family of one that is there. -/
theorem rxInv_acceptCall (hd : Descriptors cfg t) (hf : Families t) (h : RxInv t)
    (hserial : cfg.pktserial = false) {e : SockEnv} (hok : e.rxOk = true) (addrOk : Bool) (fd : ℕ) :
    RxInv (acceptCall cfg e addrOk true fd t) := by
  rcases acceptCall_cases cfg e addrOk true fd t with heq | ⟨s, hs, u, rfl, hcall⟩
  · rw [heq]
    exact h
  have hargs : packetArgs s.soFamily .stream = (.stream, s.soFamily) := if_neg (hf s hs)
  have hbusy : s.soFamily = .inet6 → t.busy = true := fun h6 =>
    busy_iff.mpr (.inl ⟨s, hs, by simp [Socket.special, h6]⟩)
  have hsock : RxInv (socketCall cfg e s.soFamily (some .stream) ipprotoTcp t).1 := by
    refine rxInv_socketCall h hserial hok s.soFamily (some .stream) ipprotoTcp fun _ => ?_
    rw [hargs]
    dsimp only
    split_ifs
    · exact fun hno => absurd hno (by decide)
    · rintro (h6 | ⟨hno, -⟩)
      · exact hbusy h6
      · exact absurd hno (by decide)
  rcases hcall with heq | ⟨newsock, hnew, heq | heq⟩
  · rw [heq]
    exact hsock
  · rw [heq]
    exact rxInv_setLocal hsock newsock
  · rw [heq]
    obtain ⟨s', hlist, rfl, htype, hfamily⟩ := socketCall_made (hf s hs) hnew
    have hd' := descriptors_socketCall hd e s.soFamily (some .stream) ipprotoTcp
    refine (rxInv_sockDelFd hd' hsock s'.fd fun s'' hs'' hfd hspecial honly => ?_).1
    have hsame : s'' = s' := hd'.inj hs'' (hlist ▸ List.mem_cons_self) hfd
    have h6 : s.soFamily = .inet6 := by
      rw [hsame, Socket.special, decide_eq_true_eq, htype, hfamily] at hspecial
      simpa using hspecial
    -- the listening socket is still there
    have hfd' : s.fd = s'.fd := by
      simpa using honly.1 s (hlist ▸ List.mem_cons_of_mem _ hs) (by simp [Socket.special, h6])
    have hnodup := hd'.nodup
    rw [Table.fds, hlist, List.map_cons, List.nodup_cons] at hnodup
    exact absurd (hfd' ▸ List.mem_map_of_mem hs) hnodup.1

/-! ## Groups -/

theorem numMcastActive_pos : 0 < numMcastActive t ↔ ∃ i, Igmp.Active t.groups i := Igmp.numTotal_pos

/-- What `_eth_join_mcast_group` does to the mode. -/
theorem ethJoinMcastGroup_mode (answer : ListAnswer) (t : Table) :
    (ethJoinMcastGroup true answer t).1.mcastSet = t.mcastSet ∧
    rxmodeMulticast1 ≤ (ethJoinMcastGroup true answer t).1.pktRxmode ∧
    ((ethJoinMcastGroup true answer t).1.pktRxmode = t.pktRxmode ∨
      t.pktRxmode < rxmodeMulticast2 ∧ t.pktRxmode ≤ (ethJoinMcastGroup true answer t).1.pktRxmode ∧
      (ethJoinMcastGroup true answer t).1.pktRxmode < rxmodePromiscous) ∧
    ((ethJoinMcastGroup true answer t).2 = false → answer = .error) := by
  have h12 : rxmodeMulticast1 < rxmodeMulticast2 := by decide
  have h26 : rxmodeMulticast2 < rxmodePromiscous := by decide
  unfold ethJoinMcastGroup pktSetRcvMode
  by_cases h2 : rxmodeMulticast2 ≤ t.pktRxmode
  · rw [if_pos h2]
    exact ⟨rfl, h12.le.trans h2, .inl rfl, fun h => absurd h (by simp)⟩
  · rw [if_neg h2]
    simp only [if_true]
    by_cases h1 : t.pktRxmode < rxmodeMulticast1
    · simp only [if_pos h1, Bool.true_eq_false, if_false]
      have hlow : t.pktRxmode < rxmodeMulticast2 := lt_of_not_ge h2
      cases answer with
      | ok => exact ⟨rfl, le_rfl, .inr ⟨hlow, h1.le, h12.trans h26⟩, fun h => absurd h (by simp)⟩
      | noMulticast => exact ⟨rfl, h12.le, .inr ⟨hlow, hlow.le, h26⟩, fun h => absurd h (by simp)⟩
      | error => exact ⟨rfl, le_rfl, .inr ⟨hlow, h1.le, h12.trans h26⟩, fun _ => rfl⟩
    · simp only [if_neg h1, Bool.true_eq_false, if_false]
      have hlow : t.pktRxmode < rxmodeMulticast2 := lt_of_not_ge h2
      cases answer with
      | ok => exact ⟨rfl, le_of_not_gt h1, .inl rfl, fun h => absurd h (by simp)⟩
      | noMulticast => exact ⟨rfl, h12.le, .inr ⟨hlow, hlow.le, h26⟩, fun h => absurd h (by simp)⟩
      | error => exact ⟨rfl, le_of_not_gt h1, .inl rfl, fun _ => rfl⟩

theorem rxInv_joinMcastGroup (h : RxInv t) (e : Igmp.CallEnv) (answer : ListAnswer) (ip : Dword)
    (hcond : RxOk cfg t (.join e true answer ip)) : RxInv (joinMcastGroup e true answer ip t) := by
  unfold joinMcastGroup
  by_cases hlink : Igmp.linkJoins e ip t.groups = true
  · rw [if_pos hlink]
    obtain ⟨hmcast, hge, hmode, hfail⟩ := ethJoinMcastGroup_mode answer t
    have hm := onlyModes_ethJoinMcastGroup true answer t
    generalize ethJoinMcastGroup true answer t = r at hm hmcast hge hmode hfail ⊢
    obtain ⟨hjoin, hstay⟩ := Igmp.active_joinMcastGroup { e with linkOk := r.2 } ip t.groups
    have hset : r.1.mcastSet = true → rxmodeMulticast2 ≤ r.1.pktRxmode := by
      intro hset
      have := h.mcast (hmcast ▸ hset)
      omega
    cases hr : r.2
    · -- the group is not joined
      refine h.raise ⟨?_, ?_, ?_⟩ ?_ hset
      · rw [Table.hasPacket, hm.skList, Table.hasPacket]
      · rw [Table.hasInet6, hm.skList, Table.hasInet6]
      · exact Igmp.numTotal_congr (hstay fun hno => by simp [hr] at hno)
      · exact hmode.imp_right fun hup => ⟨hcond hlink (hfail hr), .inr hup.2⟩
    · have hpos := Igmp.numTotal_pos.mpr (hjoin hlink hr)
      refine ⟨⟨fun hp => ?_, fun hf => ?_, fun _ => hge, fun hb => ?_⟩, hset⟩
      · rw [Table.hasPacket, hm.skList] at hp
        have := h.law.packet hp
        simp only [rxmodePromiscous, rxmodeMulticast2] at *
        omega
      · rw [Table.hasInet6, hm.skList] at hf
        have := h.law.inet6 hf
        dsimp only
        omega
      · simp only [Table.busy, Bool.or_eq_false_iff, decide_eq_false_iff_not] at hb
        exact absurd hpos hb.2
  · rw [if_neg hlink]
    have hactive := (Igmp.active_joinMcastGroup e ip t.groups).2 fun hno => hlink hno.1
    exact h.congr ⟨rfl, rfl, Igmp.numTotal_congr hactive⟩ rfl rfl

/-- What `_eth_leave_mcast_group` does to the mode. -/
theorem ethLeaveMcastGroup_mode (answer : ListAnswer) (t : Table) :
    (ethLeaveMcastGroup true answer t).1.mcastSet = t.mcastSet ∧
    ((ethLeaveMcastGroup true answer t).1.pktRxmode = t.pktRxmode ∨
      t.pktRxmode < rxmodeMulticast2 ∧ (ethLeaveMcastGroup true answer t).1.pktRxmode = rxmodeMulticast2) := by
  unfold ethLeaveMcastGroup pktSetRcvMode
  by_cases h2 : rxmodeMulticast2 ≤ t.pktRxmode
  · rw [if_pos h2]
    exact ⟨rfl, .inl rfl⟩
  · rw [if_neg h2]
    cases answer with
    | ok => exact ⟨rfl, .inl rfl⟩
    | noMulticast => exact ⟨rfl, .inr ⟨lt_of_not_ge h2, rfl⟩⟩
    | error => exact ⟨rfl, .inl rfl⟩

theorem rxInv_leaveMcastGroup (h : RxInv t) (e : Igmp.CallEnv) (answer : ListAnswer) (ip : Dword)
    (hcond : RxOk cfg t (.leave e true answer ip)) : RxInv (leaveMcastGroup e true answer ip t) := by
  unfold leaveMcastGroup
  dsimp only
  rcases Igmp.active_leaveMcastGroup e ip t.groups with ⟨hlink, hactive⟩ | ⟨ha, i, hslot, hp, hi, hactive⟩
  · rw [if_neg (not_not.mpr hlink)]
    exact h.congr ⟨rfl, rfl, Igmp.numTotal_congr hactive⟩ rfl rfl
  · have hpos : 0 < numMcastActive t := numMcastActive_pos.mpr ⟨i, hi⟩
    have hfour := h.law.groups hpos
    -- something needs the mode afterwards
    have hleft : t.hasPacket = true ∨ t.hasInet6 = true ∨
        0 < Igmp.numTotal (Igmp.leaveMcastGroup e ip t.groups).1 (Igmp.ipmultiSize - 1) := by
      by_cases hone : numMcastActive t ≤ 1
      · exact (hcond ⟨ha, hone, by simp [hslot, hp]⟩).imp_right .inl
      · refine .inr (.inr (Igmp.numTotal_pos.mpr ?_))
        by_contra hno
        refine hone (Igmp.numTotal_of_only (i := i) fun j hj => ?_)
        by_contra hne
        exact hno ⟨j, (hactive j).mpr ⟨hne, hj⟩⟩
    obtain ⟨hmcast, hmode⟩ := ethLeaveMcastGroup_mode answer t
    have hm := onlyModes_ethLeaveMcastGroup true answer t
    generalize hgroups : (Igmp.leaveMcastGroup e ip t.groups).1 = groups at hleft hactive ⊢
    have hrx : ∀ u : Table, u.skList = t.skList → u.groups = groups → u.mcastSet = t.mcastSet →
        (u.pktRxmode = t.pktRxmode ∨ t.pktRxmode < rxmodeMulticast2 ∧ u.pktRxmode = rxmodeMulticast2) →
        RxInv u := by
      intro u hl hg hset hmode
      have hpacket : u.hasPacket = t.hasPacket := by rw [Table.hasPacket, hl, Table.hasPacket]
      have hinet6 : u.hasInet6 = t.hasInet6 := by rw [Table.hasInet6, hl, Table.hasInet6]
      refine ⟨⟨fun hp => ?_, fun hf => ?_, fun _ => ?_, fun hb => ?_⟩, fun hset' => ?_⟩
      · have := h.law.packet (hpacket ▸ hp)
        simp only [rxmodePromiscous, rxmodeMulticast2] at *
        omega
      · have := h.law.inet6 (hinet6 ▸ hf)
        omega
      · simp only [rxmodeMulticast1, rxmodeMulticast2] at *
        omega
      · rw [Table.busy, hpacket, hinet6, numMcastActive, hg] at hb
        simp only [Bool.or_eq_false_iff, decide_eq_false_iff_not] at hb
        rcases hleft with hp | hf | hpos
        · simp [hp] at hb
        · simp [hf] at hb
        · exact absurd hpos hb.2
      · have := h.mcast (hset ▸ hset')
        omega
    split_ifs
    · exact hrx _ hm.skList rfl hmcast hmode
    · exact hrx _ rfl rfl rfl (.inl rfl)

/-! ## Runs -/

/-- What every step keeps. -/
structure ModeInv (cfg : Config) (t : Table) : Prop where
  descriptors : Descriptors cfg t
  families : Families t
  rx : RxInv t

theorem modeInv_step (hserial : cfg.pktserial = false) (h : ModeInv cfg t) (op : Op)
    (hserved : RxServed op) (hok : RxOk cfg t op) : ModeInv cfg (step cfg t op) := by
  refine ⟨descriptors_step h.descriptors op, families_step h.descriptors h.families op, ?_⟩
  cases op with
  | socket e family type protocol =>
    exact rxInv_socketCall h.rx hserial hserved family type protocol hok
  | accept e addrOk rxOk fd =>
    obtain ⟨he, rfl⟩ := hserved
    exact rxInv_acceptCall h.descriptors h.families h.rx hserial he addrOk fd
  | setLocal fd => exact rxInv_setLocal h.rx fd
  | close rxOk how fd =>
    cases hserved
    exact rxInv_closeS h.descriptors h.rx how fd hok
  | daemon rxOk gone =>
    cases hserved
    exact rxInv_sockDaemon h.descriptors h.rx gone hok
  | frame data =>
    obtain ⟨hg, hmode, hset⟩ := ethArrived_modes data t
    have hlist := (ethArrived_same data t).2.1
    refine h.rx.congr ?_ hmode hset
    split_ifs at hlist
    · exact sameNeeds_of_map (fun s => by unfold Socket.takes; split_ifs <;> rfl)
        (fun s => by unfold Socket.takes; split_ifs <;> rfl) hlist hg
    · exact sameNeeds_of_list hlist hg
  | receive fd =>
    exact h.rx.congr (sameNeeds_of_map (fun s => by split_ifs <;> rfl) (fun s => by split_ifs <;> rfl) rfl rfl)
      rfl rfl
  | join e ok answer ip =>
    cases hserved
    exact rxInv_joinMcastGroup h.rx e answer ip hok
  | leave e ok answer ip =>
    cases hserved
    exact rxInv_leaveMcastGroup h.rx e answer ip hok

theorem modeInv_init (cfg : Config) (hook : Hook) : ModeInv cfg (initTable cfg hook) := by
  refine ⟨descriptors_init cfg hook, fun _ hs => absurd hs List.not_mem_nil, ⟨⟨fun hp => ?_, fun hf => ?_,
    fun hg => ?_, fun _ => rfl⟩, fun hset => ?_⟩⟩
  · exact absurd hp Bool.false_ne_true
  · exact absurd hf Bool.false_ne_true
  · obtain ⟨i, -, -, hi⟩ := numMcastActive_pos.mp hg
    exact absurd hi Bool.false_ne_true
  · exact absurd hset Bool.false_ne_true

/-- **The receive mode follows** the sockets and the groups: in a run whose steps meet `RxOk`, with
`pkt_set_rcv_mode` succeeding, the law holds after every step. -/
theorem mode_follows (cfg : Config) (hook : Hook) (hserial : cfg.pktserial = false) (ops : List Op)
    (hserved : Always (step cfg) (fun _ op => RxServed op) (initTable cfg hook) ops)
    (hok : Always (step cfg) (RxOk cfg) (initTable cfg hook) ops) :
    Always (step cfg) (fun t op => RxLaw (step cfg t op)) (initTable cfg hook) ops := by
  refine always_of_invariant (I := ModeInv cfg) (Q := fun t op => RxServed op ∧ RxOk cfg t op)
    (fun t op h hq => ?_) ops (modeInv_init cfg hook) ((always_and ops).mpr ⟨hserved, hok⟩)
  have hnext := modeInv_step hserial h op hq.1 hq.2
  exact ⟨hnext, hnext.rx.law⟩

/-- A SOCK_PACKET socket is opened, closed, and opened again. -/
def packetAgain : List Op :=
  [.socket {} .packet (some .raw) 0, .close true .lingers 3, .socket {} .packet (some .raw) 0]

/-- `promis_set` is stale: with the second socket the driver is not promiscuous. -/
theorem mode_stale : Always (step {}) (fun _ op => RxServed op) (initTable {} .null) packetAgain ∧
    ¬ Always (step {}) (fun t op => RxLaw (step {} t op)) (initTable {} .null) packetAgain := by
  refine ⟨by decide, ?_⟩
  rintro ⟨-, -, h, -⟩
  exact absurd (h.packet (by decide)) (by decide)

/-- An AF_INET6 and a SOCK_PACKET socket are opened and closed, and a group is joined meanwhile. -/
def mixedOps : List Op :=
  [.socket {} .inet6 (some .dgram) 0, .join {} true .ok 0xe0010101, .socket {} .packet (some .raw) 0,
    .close true .lingers 3, .leave {} true .ok 0xe0010101, .close true .lingers 4]

theorem mode_follows_mixed : Always (step {}) (fun t op => RxLaw (step {} t op)) (initTable {} .null) mixedOps :=
  mode_follows {} .null rfl mixedOps (by decide) (by decide)

end Watt32.Sk
