import Watt32.Sk.Table
import Mathlib.Tactic

/-!
# What the calls do to the socket table

* `OnlyModes`: the functions about the receive mode leave the rest of the table alone.
* `socketAdd_full`, `socketAdd_lost`, `socketAdd_linked`: the three ends of `socket`.
* **`socketCall_outcome`**: all that `socket` can do; `acceptCall_cases` and `closeS_cases` take the
  calls over it apart.
-/

namespace Watt32.Sk

variable {cfg : Config} {t t' u : Table} {fd : ℕ}

/-! ## The receive mode -/

/-- Only the receive mode and its flags change. -/
structure OnlyModes (t t' : Table) : Prop where
  skList : t'.skList = t.skList
  inuse : t'.inuse = t.inuse
  skLast : t'.skLast = t.skLast
  ethRecvPeek : t'.ethRecvPeek = t.ethRecvPeek
  groups : t'.groups = t.groups
  appGot : t'.appGot = t.appGot

theorem OnlyModes.refl (t : Table) : OnlyModes t t := ⟨rfl, rfl, rfl, rfl, rfl, rfl⟩

theorem OnlyModes.trans (h : OnlyModes t t') (h' : OnlyModes t' u) : OnlyModes t u :=
  ⟨h'.skList.trans h.skList, h'.inuse.trans h.inuse, h'.skLast.trans h.skLast,
    h'.ethRecvPeek.trans h.ethRecvPeek, h'.groups.trans h.groups, h'.appGot.trans h.appGot⟩

theorem onlyModes_pktSetRcvMode (ok : Bool) (mode : ℕ) (t : Table) :
    OnlyModes t (pktSetRcvMode ok mode t).1 := by
  cases ok <;> exact ⟨rfl, rfl, rfl, rfl, rfl, rfl⟩

theorem onlyModes_sockSetNormalRxMode (ok : Bool) (fd : ℕ) (t : Table) :
    OnlyModes t (sockSetNormalRxMode ok fd t) := by
  unfold sockSetNormalRxMode
  split_ifs
  · exact .refl t
  · exact .refl t
  · have h := onlyModes_pktSetRcvMode ok rxmodeBroadcast t
    exact ⟨h.skList, h.inuse, h.skLast, h.ethRecvPeek, h.groups, h.appGot⟩

theorem onlyModes_delRxMode (ok : Bool) (s : Socket) (t : Table) : OnlyModes t (delRxMode ok s t) := by
  unfold delRxMode
  split_ifs
  · exact onlyModes_sockSetNormalRxMode ok s.fd t
  · exact .refl t

theorem onlyModes_sockSetMcastRxMode (cfg : Config) (ok : Bool) (t : Table) :
    OnlyModes t (sockSetMcastRxMode cfg ok t).1 := by
  have h : OnlyModes t (if t.mcastSet then (t, true) else ip6PktInit cfg ok t).1 := by
    unfold ip6PktInit
    split_ifs
    · exact .refl t
    · exact .refl t
    · exact onlyModes_pktSetRcvMode ok rxmodeMulticast2 t
    · exact .refl t
  exact ⟨h.skList, h.inuse, h.skLast, h.ethRecvPeek, h.groups, h.appGot⟩

theorem onlyModes_sockSetPromiscRxMode (ok : Bool) (t : Table) :
    OnlyModes t (sockSetPromiscRxMode ok t).1 := by
  have h : OnlyModes t (if t.promisSet then (t, true) else pktSetRcvMode ok rxmodePromiscous t).1 := by
    split_ifs
    · exact .refl t
    · exact onlyModes_pktSetRcvMode ok rxmodePromiscous t
  exact ⟨h.skList, h.inuse, h.skLast, h.ethRecvPeek, h.groups, h.appGot⟩

theorem onlyModes_setProto (cfg : Config) (e : SockEnv) (type : SockType) (isIp6 : Bool) (protocol : ℤ)
    (t : Table) : OnlyModes t (setProto cfg e type isIp6 protocol t).1 := by
  have h : OnlyModes t (if cfg.useIpv6 ∧ isIp6 then sockSetMcastRxMode cfg e.rxOk t else (t, true)).1 := by
    split_ifs
    · exact onlyModes_sockSetMcastRxMode cfg e.rxOk t
    · exact .refl t
  simp only [setProto]
  generalize (if cfg.useIpv6 ∧ isIp6 then sockSetMcastRxMode cfg e.rxOk t else (t, true)) = r at h ⊢
  by_cases hr : r.2 = false
  · rw [if_pos hr]
    exact h
  · rw [if_neg hr]
    by_cases hp : type = .packet
    · rw [if_pos hp]
      exact h.trans (onlyModes_sockSetPromiscRxMode e.rxOk r.1)
    · rw [if_neg hp]
      exact h

theorem onlyModes_ethJoinMcastGroup (ok : Bool) (answer : ListAnswer) (t : Table) :
    OnlyModes t (ethJoinMcastGroup ok answer t).1 := by
  have h : OnlyModes t (if t.pktRxmode < rxmodeMulticast1 then pktSetRcvMode ok rxmodeMulticast1 t
      else (t, true)).1 := by
    split_ifs
    · exact onlyModes_pktSetRcvMode ok rxmodeMulticast1 t
    · exact .refl t
  unfold ethJoinMcastGroup
  by_cases hmode : rxmodeMulticast2 ≤ t.pktRxmode
  · rw [if_pos hmode]
    exact .refl t
  · rw [if_neg hmode]
    dsimp only
    generalize (if t.pktRxmode < rxmodeMulticast1 then pktSetRcvMode ok rxmodeMulticast1 t
      else (t, true)) = r at h ⊢
    by_cases hr : r.2 = false
    · rw [if_pos hr]
      exact onlyModes_pktSetRcvMode ok rxmodePromiscous t
    · rw [if_neg hr]
      cases answer with
      | ok => exact h
      | noMulticast => exact h.trans (onlyModes_pktSetRcvMode ok rxmodeMulticast2 _)
      | error => exact h

theorem onlyModes_ethLeaveMcastGroup (ok : Bool) (answer : ListAnswer) (t : Table) :
    OnlyModes t (ethLeaveMcastGroup ok answer t).1 := by
  unfold ethLeaveMcastGroup
  split_ifs
  · exact .refl t
  · cases answer with
    | ok => exact .refl t
    | noMulticast => exact onlyModes_pktSetRcvMode ok rxmodeMulticast2 t
    | error => exact .refl t

/-- A join changes the groups and the receive mode. -/
theorem joinMcastGroup_eq (e : Igmp.CallEnv) (ok : Bool) (answer : ListAnswer) (ip : Dword) (t : Table) :
    ∃ u groups, OnlyModes t u ∧ joinMcastGroup e ok answer ip t = { u with groups := groups } := by
  unfold joinMcastGroup
  split_ifs
  · exact ⟨_, _, onlyModes_ethJoinMcastGroup ok answer t, rfl⟩
  · exact ⟨_, _, .refl t, rfl⟩

theorem leaveMcastGroup_eq (e : Igmp.CallEnv) (ok : Bool) (answer : ListAnswer) (ip : Dword) (t : Table) :
    ∃ u groups, OnlyModes t u ∧ leaveMcastGroup e ok answer ip t = { u with groups := groups } := by
  unfold leaveMcastGroup
  dsimp only
  split_ifs
  · exact ⟨_, _, onlyModes_ethLeaveMcastGroup ok answer t, rfl⟩
  · exact ⟨_, _, .refl t, rfl⟩

/-! ## `socket`, by what it finds -/

section

variable {e : SockEnv} {type : SockType} {proto : ℤ} {family : Family}

/-- Whether `calloc` gives what `socklist_add` asks for. -/
def Allocates (e : SockEnv) (type : SockType) (proto : ℤ) (family : Family) : Prop :=
  e.callocSock = true ∧ addOk e type proto family = true

theorem socklistAdd_ok : (socklistAdd cfg e fd type proto family t).2 = false ↔
    ¬ Allocates e type proto family := by
  unfold socklistAdd Allocates
  cases e.callocSock
  · simp
  · cases addOk e type proto family <;> simp

/-- `socklist_add` fails. -/
theorem socklistAdd_lost (h : ¬ Allocates e type proto family) :
    (socklistAdd cfg e fd type proto family t).1 =
      if e.callocSock ∧ type = .packet then { t with ethRecvPeek := .null } else t := by
  unfold socklistAdd
  dsimp only
  by_cases hsock : e.callocSock = false
  · rw [if_pos hsock, if_neg (by simp [hsock])]
  · have hadd : ¬ addOk e type proto family = true := fun hok => h ⟨by simpa using hsock, hok⟩
    rw [if_neg hsock, if_neg hadd]
    by_cases hp : type = .packet
    · rw [if_pos hp, if_pos ⟨by simpa using hsock, hp⟩]
      rfl
    · rw [if_neg hp, if_neg fun hno => hp hno.2]

/-- `socklist_add` succeeds. -/
theorem socklistAdd_linked (h : Allocates e type proto family) :
    (socklistAdd cfg e fd type proto family t).1 =
      { t with skList := newSocket cfg fd type proto family :: t.skList } := by
  unfold socklistAdd
  dsimp only
  rw [if_neg (by simp [h.1]), if_pos h.2]

/-- No descriptor is free. -/
theorem socketAdd_full (h : ¬ vacantFd t < cfg.maxSockets) :
    socketAdd cfg e type proto family t = (t, .error .emfile) := by
  simp [socketAdd, sockAllocFd, h]

/-- The socket cannot be made. -/
theorem socketAdd_lost (h : vacantFd t < cfg.maxSockets)
    (hadd : ¬ Allocates e type proto family) :
    socketAdd cfg e type proto family t = (sockCloseFd cfg (vacantFd t)
      (socklistAdd cfg e (vacantFd t) type proto family (sockAllocFd cfg t).1).1, .error .enomem) := by
  have heq : sockAllocFd cfg t = ((sockAllocFd cfg t).1, some (vacantFd t)) := by simp [sockAllocFd, h]
  rw [socketAdd, heq]
  exact if_pos (socklistAdd_ok.mpr hadd)

/-- The socket is made. -/
theorem socketAdd_linked (h : vacantFd t < cfg.maxSockets)
    (hadd : Allocates e type proto family) :
    socketAdd cfg e type proto family t = (if type = .packet then hookPacket
      (socklistAdd cfg e (vacantFd t) type proto family (sockAllocFd cfg t).1).1 else
      (socklistAdd cfg e (vacantFd t) type proto family (sockAllocFd cfg t).1).1, .ok (vacantFd t)) := by
  have heq : sockAllocFd cfg t = ((sockAllocFd cfg t).1, some (vacantFd t)) := by simp [sockAllocFd, h]
  rw [socketAdd, heq]
  exact if_neg fun hno => socklistAdd_ok.mp hno hadd

end

/-- The arguments of `socket` pass its checks. -/
def argsOk (cfg : Config) (family : Family) (type : SockType) (protocol : ℤ) : Bool :=
  family ≠ .other ∧ (family = .inet6 → cfg.useIpv6 = true) ∧
    ¬ ((packetArgs family type).1 = .raw ∧ (protocol < ipprotoIp ∨ ipprotoMax ≤ protocol))

/-- The way of `socket` to `set_proto` and on. -/
theorem socketCall_cases (cfg : Config) (e : SockEnv) (family : Family) (type : Option SockType)
    (protocol : ℤ) (t : Table) :
    (∃ err, err ≠ .emfile ∧ socketCall cfg e family type protocol t = (t, .error err)) ∨
    ∃ type' type'' family', type = some type' ∧ argsOk cfg family type' protocol ∧
      packetArgs family type' = (type'', family') ∧
      ((∃ err, (setProto cfg e type'' (family' = .inet6) protocol t).2 = .error err ∧
        socketCall cfg e family type protocol t =
          ((setProto cfg e type'' (family' = .inet6) protocol t).1, .error err)) ∨
      ∃ proto, (setProto cfg e type'' (family' = .inet6) protocol t).2 = .ok proto ∧
        socketCall cfg e family type protocol t = socketAdd cfg e type'' proto family'
          (setProto cfg e type'' (family' = .inet6) protocol t).1) := by
  unfold socketCall
  by_cases hfam : family = .other ∨ family = .inet6 ∧ cfg.useIpv6 = false
  · exact .inl ⟨.eafnosupport, by simp, by rw [if_pos hfam]⟩
  · rw [if_neg hfam]
    cases type with
    | none => exact .inl ⟨.esocktnosupport, by simp, rfl⟩
    | some type =>
      dsimp only
      by_cases hraw : (packetArgs family type).1 = .raw ∧ (protocol < ipprotoIp ∨ ipprotoMax ≤ protocol)
      · exact .inl ⟨.einval, by simp, by rw [if_pos hraw]⟩
      · rw [if_neg hraw]
        have hargs : argsOk cfg family type protocol := by
          simp only [not_or, not_and, Bool.not_eq_false] at hfam
          exact decide_eq_true ⟨hfam.1, hfam.2, hraw⟩
        refine .inr ⟨type, (packetArgs family type).1, (packetArgs family type).2, rfl, hargs, rfl, ?_⟩
        rcases setProto cfg e (packetArgs family type).1 ((packetArgs family type).2 = .inet6) protocol t
          with ⟨u, err | proto⟩
        · exact .inl ⟨err, rfl, rfl⟩
        · exact .inr ⟨proto, rfl, rfl⟩

/-- The receive mode and its flags, the groups and the calls of the hook are those of `t`. -/
structure SameModes (t t' : Table) : Prop where
  mcastSet : t'.mcastSet = t.mcastSet
  promisSet : t'.promisSet = t.promisSet
  pktRxmode : t'.pktRxmode = t.pktRxmode
  pktForcedRxmode : t'.pktForcedRxmode = t.pktForcedRxmode
  groups : t'.groups = t.groups
  appGot : t'.appGot = t.appGot

theorem SameModes.trans (h : SameModes t t') (h' : SameModes t' u) : SameModes t u :=
  ⟨h'.1.trans h.1, h'.2.trans h.2, h'.3.trans h.3, h'.4.trans h.4, h'.5.trans h.5, h'.6.trans h.6⟩

/-- The ends of `socket` from `sock_alloc_fd` on. -/
inductive Added (cfg : Config) (e : SockEnv) (type : SockType) (proto : ℤ) (family : Family) (t : Table) :
    Table → Except Errno ℕ → Prop
  | full (h : ¬ vacantFd t < cfg.maxSockets) : Added cfg e type proto family t t (.error .emfile)
  | lost (u : Table) (h : vacantFd t < cfg.maxSockets) (hadd : ¬ Allocates e type proto family)
      (hlist : u.skList = t.skList) (hmodes : SameModes t u)
      (hpeek : u.ethRecvPeek = if e.callocSock ∧ type = .packet then .null else t.ethRecvPeek) :
      Added cfg e type proto family t u (.error .enomem)
  | made (u : Table) (s : Socket) (h : vacantFd t < cfg.maxSockets) (hadd : Allocates e type proto family)
      (hlist : u.skList = s :: t.skList) (hmodes : SameModes t u) (htype : s.soType = type)
      (hfamily : s.soFamily = family)
      (hpacket : type = .packet → s.oldEthPeek = t.ethRecvPeek ∧ s.packetPool.isSome)
      (hpeek : u.ethRecvPeek = if type = .packet then .peek else t.ethRecvPeek) :
      Added cfg e type proto family t u (.ok s.fd)

theorem sockAllocFd_same (cfg : Config) (t : Table) : (sockAllocFd cfg t).1.skList = t.skList ∧
    (sockAllocFd cfg t).1.ethRecvPeek = t.ethRecvPeek ∧ SameModes t (sockAllocFd cfg t).1 := by
  unfold sockAllocFd
  dsimp only
  split_ifs <;> exact ⟨rfl, rfl, rfl, rfl, rfl, rfl, rfl, rfl⟩

theorem sockCloseFd_same (cfg : Config) (fd : ℕ) (t : Table) : (sockCloseFd cfg fd t).skList = t.skList ∧
    (sockCloseFd cfg fd t).ethRecvPeek = t.ethRecvPeek ∧ SameModes t (sockCloseFd cfg fd t) := by
  unfold sockCloseFd
  split_ifs <;> exact ⟨rfl, rfl, rfl, rfl, rfl, rfl, rfl, rfl⟩

theorem socketAdd_outcome (cfg : Config) (e : SockEnv) (type : SockType) (proto : ℤ) (family : Family)
    (t : Table) : Added cfg e type proto family t (socketAdd cfg e type proto family t).1
      (socketAdd cfg e type proto family t).2 := by
  obtain ⟨hlist, hpeek, hmodes⟩ := sockAllocFd_same cfg t
  by_cases hlt : vacantFd t < cfg.maxSockets
  · by_cases hadd : Allocates e type proto family
    · rw [socketAdd_linked hlt hadd, socklistAdd_linked hadd]
      by_cases hp : type = .packet
      · rw [if_pos hp]
        refine .made (s := { newSocket cfg (vacantFd t) type proto family with
          oldEthPeek := (sockAllocFd cfg t).1.ethRecvPeek }) _ hlt hadd ?_ ?_ rfl rfl ?_ ?_
        · simp [hookPacket, hlist]
        · exact ⟨hmodes.1, hmodes.2, hmodes.3, hmodes.4, hmodes.5, hmodes.6⟩
        · exact fun _ => ⟨hpeek, by simp [newSocket, hp]⟩
        · simp [hookPacket, hp]
      · rw [if_neg hp]
        refine .made (s := newSocket cfg (vacantFd t) type proto family) _ hlt hadd ?_ ?_ rfl rfl
          (fun h => absurd h hp) ?_
        · simp [hlist]
        · exact ⟨hmodes.1, hmodes.2, hmodes.3, hmodes.4, hmodes.5, hmodes.6⟩
        · simp [hp, hpeek]
    · rw [socketAdd_lost hlt hadd, socklistAdd_lost hadd]
      obtain ⟨hlist', hpeek', hmodes'⟩ := sockCloseFd_same cfg (vacantFd t)
        (if e.callocSock ∧ type = .packet then { (sockAllocFd cfg t).1 with ethRecvPeek := .null }
          else (sockAllocFd cfg t).1)
      refine .lost _ hlt hadd (hlist'.trans ?_) ?_ (hpeek'.trans ?_)
      · split_ifs <;> exact hlist
      · have hlost : SameModes t (if e.callocSock ∧ type = .packet then
            { (sockAllocFd cfg t).1 with ethRecvPeek := .null } else (sockAllocFd cfg t).1) := by
          split_ifs
          · exact ⟨hmodes.1, hmodes.2, hmodes.3, hmodes.4, hmodes.5, hmodes.6⟩
          · exact hmodes
        exact hlost.trans hmodes'
      · split_ifs
        · rfl
        · exact hpeek
  · rw [socketAdd_full hlt]
    exact .full hlt

theorem vacantFd_congr (h : OnlyModes t t') : vacantFd t' = vacantFd t := by
  have hfind : t'.find = t.find := by
    funext fd
    rw [Table.find, h.skList, Table.find]
  rw [vacantFd, vacantFd, h.skLast, h.inuse, hfind]

theorem packetArgs_family {family family' : Family} {type type' : SockType}
    (h : packetArgs family type = (type', family')) : family' ≠ .packet := by
  unfold packetArgs at h
  split_ifs at h with hp
  · simp only [Prod.mk.injEq] at h
    simp [← h.2]
  · simp only [Prod.mk.injEq] at h
    rw [← h.2]
    exact hp

theorem packetArgs_inet6 {family : Family} {type type' : SockType}
    (h : packetArgs family type = (type', .inet6)) : family = .inet6 := by
  unfold packetArgs at h
  split_ifs at h
  · simp at h
  · exact (Prod.mk.inj h).2

/-- A stream socket that `socket` made is the first in the list. -/
theorem socketCall_made {e : SockEnv} {family : Family} {protocol : ℤ} (hfamily : family ≠ .packet)
    (hok : (socketCall cfg e family (some .stream) protocol t).2 = .ok fd) :
    ∃ s, (socketCall cfg e family (some .stream) protocol t).1.skList = s :: t.skList ∧ s.fd = fd ∧
      s.soType = .stream ∧ s.soFamily = family := by
  rcases socketCall_cases cfg e family (some .stream) protocol t with
    ⟨err, -, heq⟩ | ⟨type', type'', family', htype, -, hpacket, ⟨err, -, heq⟩ | ⟨proto, -, heq⟩⟩
  · simp [heq] at hok
  · simp [heq] at hok
  · simp only [Option.some.injEq] at htype
    subst htype
    rw [packetArgs, if_neg hfamily] at hpacket
    obtain ⟨rfl, rfl⟩ := Prod.mk.inj hpacket
    have hm := onlyModes_setProto cfg e .stream (family = .inet6) protocol t
    rw [heq] at hok ⊢
    generalize (setProto cfg e .stream (family = .inet6) protocol t).1 = m at hok hm ⊢
    have hend := socketAdd_outcome cfg e .stream proto family m
    generalize (socketAdd cfg e .stream proto family m).1 = u at hend ⊢
    generalize (socketAdd cfg e .stream proto family m).2 = r at hend hok
    cases hend with
    | full => simp at hok
    | lost => simp at hok
    | made _ s _ _ hlist _ htype hfam =>
      exact ⟨s, hm.skList ▸ hlist, by simpa using hok, htype, hfam⟩

/-! ## `accept` and `close_s` -/

/-- `accept`, by what `socket` gives it. -/
theorem acceptCall_cases (cfg : Config) (e : SockEnv) (addrOk rxOk : Bool) (fd : ℕ) (t : Table) :
    acceptCall cfg e addrOk rxOk fd t = t ∨ ∃ s ∈ t.skList, ∃ u,
      u = (socketCall cfg e s.soFamily (some .stream) ipprotoTcp t).1 ∧
      (acceptCall cfg e addrOk rxOk fd t = u ∨ ∃ newsock,
        (socketCall cfg e s.soFamily (some .stream) ipprotoTcp t).2 = .ok newsock ∧
        (acceptCall cfg e addrOk rxOk fd t = setLocal newsock u ∨
          acceptCall cfg e addrOk rxOk fd t = sockDelFd cfg rxOk newsock u)) := by
  unfold acceptCall
  cases hfind : t.find fd with
  | none => exact .inl rfl
  | some s =>
    dsimp only
    by_cases hno : s.soType ≠ .stream ∨ s.localAddr = false
    · exact .inl (if_pos hno)
    · rw [if_neg hno]
      refine .inr ⟨s, List.mem_of_find?_eq_some hfind, _, rfl, ?_⟩
      rcases socketCall cfg e s.soFamily (some .stream) ipprotoTcp t with ⟨u, err | newsock⟩
      · exact .inl rfl
      · refine .inr ⟨newsock, rfl, ?_⟩
        cases addrOk
        · exact .inr rfl
        · exact .inl rfl

/-- `close_s` deletes the socket, or leaves it to `sock_daemon`. -/
theorem closeS_cases (cfg : Config) (rxOk : Bool) (how : CloseHow) (fd : ℕ) (t : Table) :
    closeS cfg rxOk how fd t = t ∨ closeS cfg rxOk how fd t = sockDelFd cfg rxOk fd t := by
  unfold closeS
  cases t.find fd with
  | none => exact .inl rfl
  | some s =>
    dsimp only
    cases s.soType with
    | packet => exact .inr rfl
    | raw => exact .inr rfl
    | dgram => exact ite_eq_or_eq _ _ _
    | stream => exact (ite_eq_or_eq _ _ _).symm

/-! ## Frames -/

/-- What a frame does to the sockets and to the hook. -/
theorem ethArrived_same (data : List Byte) (t : Table) :
    (ethArrived data t).ethRecvPeek = t.ethRecvPeek ∧ (ethArrived data t).skList =
      (if t.ethRecvPeek = .peek then t.skList.map fun s => s.takes data else t.skList) ∧
      (ethArrived data t).inuse = t.inuse ∧ (ethArrived data t).skLast = t.skLast := by
  unfold ethArrived
  cases hp : t.ethRecvPeek with
  | null => exact ⟨hp, rfl, rfl, rfl⟩
  | app => exact ⟨hp, rfl, rfl, rfl⟩
  | peek =>
    simp only [sockPacketPeek, if_true]
    split
    · exact ⟨hp, rfl, rfl, rfl⟩
    · split_ifs
      · split
        · exact ⟨hp, rfl, rfl, rfl⟩
        · exact ⟨hp, rfl, rfl, rfl⟩
      · exact ⟨hp, rfl, rfl, rfl⟩

theorem ethArrived_modes (data : List Byte) (t : Table) : (ethArrived data t).groups = t.groups ∧
    (ethArrived data t).pktRxmode = t.pktRxmode ∧ (ethArrived data t).mcastSet = t.mcastSet := by
  unfold ethArrived
  cases t.ethRecvPeek with
  | null => exact ⟨rfl, rfl, rfl⟩
  | app => exact ⟨rfl, rfl, rfl⟩
  | peek =>
    simp only [sockPacketPeek]
    split
    · exact ⟨rfl, rfl, rfl⟩
    · split_ifs
      · split <;> exact ⟨rfl, rfl, rfl⟩
      · exact ⟨rfl, rfl, rfl⟩

end Watt32.Sk
