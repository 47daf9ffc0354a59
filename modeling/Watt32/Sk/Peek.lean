import Watt32.Sk.Descriptors

/-!
# The hook of the SOCK_PACKET sockets

Each SOCK_PACKET socket saves what it finds in `_eth_recv_peek` and puts it back when it is deleted.

* `Hooked`: the chain of the saved hooks.
* `Watched`: what a step should do: every SOCK_PACKET socket gets the frames, the application's own hook
  is called once for each, and it is back when the last SOCK_PACKET socket is gone.
* `PeekOk`: the steps after which this holds.
* **`frames_watched`**: a run whose steps meet `PeekOk` keeps the law.
-/

namespace Watt32.Sk

open Machine

variable {cfg : Config} {hook : Hook} {t t' u : Table} {fd : ℕ} {s : Socket}

/-! ## The law -/

/-- The SOCK_PACKET sockets, the newest first. -/
def Table.packets (t : Table) : List Socket := t.skList.filter fun s => s.soType = .packet

/-- The oldest of them. -/
def Table.oldest (t : Table) : Option Socket := t.packets.getLast?

/-- What a step should do, `hook` being the application's own. -/
structure Watched (cfg : Config) (hook : Hook) (t : Table) (op : Op) : Prop where
  /-- Every SOCK_PACKET socket has a ring. -/
  ring : ∀ s ∈ (step cfg t op).packets, s.ring.isSome
  /-- Whatever frame comes next is put in each ring, or counted as a drop there. -/
  taken : ∀ data, (ethArrived data (step cfg t op)).skList =
    (step cfg t op).skList.map fun s => s.takes data
  /-- The hook is called once for a frame. -/
  app : ∀ data, op = .frame data →
    (step cfg t op).appGot = if hook = .app then t.appGot ++ [data] else t.appGot
  /-- It is back when no SOCK_PACKET socket is left. -/
  back : (step cfg t op).packets = [] → (step cfg t op).ethRecvPeek = hook

/-- The call of `socket` gets to the allocation of a ring, and that fails. -/
def PoolFails (cfg : Config) (e : SockEnv) (family : Family) (type : SockType) (protocol : ℤ)
    (t : Table) : Prop :=
  (packetArgs family type).1 = .packet ∧ argsOk cfg family type protocol ∧
    (setProto cfg e .packet ((packetArgs family type).2 = .inet6) protocol t).2.isOk ∧
    vacantFd t < cfg.maxSockets ∧ e.callocSock = true ∧ e.callocProto = false

instance (cfg : Config) (e : SockEnv) (family : Family) (type : SockType) (protocol : ℤ) (t : Table) :
    Decidable (PoolFails cfg e family type protocol t) :=
  inferInstanceAs (Decidable (_ ∧ _))

/-- The steps that keep the law: a ring is only missed when there is nothing to lose, the oldest
SOCK_PACKET socket is closed last, and it has room when a frame comes for the application. -/
def PeekOk (cfg : Config) (hook : Hook) (t : Table) : Op → Prop
  | .socket e family (some type) protocol =>
    PoolFails cfg e family type protocol t → t.packets = [] ∧ hook = .null
  | .close _ _ fd => ∀ o ∈ t.oldest, o.fd = fd → t.packets.length = 1
  | .frame _ => hook = .app → ∀ o ∈ t.oldest, o.hasRoom = true
  | _ => True

instance PeekOk.decidable (cfg : Config) (hook : Hook) (t : Table) : ∀ op, Decidable (PeekOk cfg hook t op)
  | .socket e family (some type) protocol => inferInstanceAs (Decidable
      (PoolFails cfg e family type protocol t → t.packets = [] ∧ hook = .null))
  | .close _ _ fd => inferInstanceAs (Decidable (∀ o ∈ t.oldest, o.fd = fd → t.packets.length = 1))
  | .frame _ => inferInstanceAs (Decidable (hook = .app → ∀ o ∈ t.oldest, o.hasRoom = true))
  | .socket _ _ none _ | .accept .. | .setLocal _ | .daemon .. | .receive _ | .join .. | .leave .. =>
    .isTrue trivial

/-! ## The chain -/

/-- The oldest socket holds the application's hook, the others hold `sock_packet_peek`. -/
structure Hooked (hook : Hook) (t : Table) : Prop where
  pools : ∀ s ∈ t.packets, s.packetPool.isSome
  chain : t.packets = [] ∧ t.ethRecvPeek = hook ∨ ∃ l o, t.packets = l ++ [o] ∧
    (∀ s ∈ l, s.oldEthPeek = .peek) ∧ o.oldEthPeek = hook ∧ t.ethRecvPeek = .peek

theorem mem_packets : s ∈ t.packets ↔ s ∈ t.skList ∧ s.soType = .packet := by
  simp [Table.packets]

theorem Hooked.congr (h : Hooked hook t) (hlist : t'.skList = t.skList)
    (hpeek : t'.ethRecvPeek = t.ethRecvPeek) : Hooked hook t' := by
  have hpackets : t'.packets = t.packets := by rw [Table.packets, hlist, Table.packets]
  refine ⟨hpackets ▸ h.pools, ?_⟩
  rw [hpackets, hpeek]
  exact h.chain

/-- Each socket changes, but for what the chain is about. -/
theorem Hooked.map (h : Hooked hook t) {f : Socket → Socket} (htype : ∀ s, (f s).soType = s.soType)
    (hold : ∀ s, (f s).oldEthPeek = s.oldEthPeek) (hpool : ∀ s, (f s).packetPool.isSome = s.packetPool.isSome)
    (hlist : t'.skList = t.skList.map f) (hpeek : t'.ethRecvPeek = t.ethRecvPeek) : Hooked hook t' := by
  have hpackets : t'.packets = t.packets.map f := by
    rw [Table.packets, hlist, List.filter_map, Table.packets]
    congr 1
    exact List.filter_congr fun s _ => by simp [htype]
  refine ⟨fun s hs => ?_, ?_⟩
  · rw [hpackets] at hs
    obtain ⟨s', hs', rfl⟩ := List.mem_map.mp hs
    rw [hpool]
    exact h.pools s' hs'
  · rw [hpackets, hpeek]
    rcases h.chain with ⟨hnone, heq⟩ | ⟨l, o, heq, hpeeks, ho, hp⟩
    · exact .inl ⟨by rw [hnone]; rfl, heq⟩
    · refine .inr ⟨l.map f, f o, by rw [heq, List.map_append]; rfl, fun s hs => ?_, (hold o).trans ho, hp⟩
      obtain ⟨s', hs', rfl⟩ := List.mem_map.mp hs
      exact (hold s').trans (hpeeks s' hs')

/-- A socket of another type is linked. -/
theorem Hooked.cons (h : Hooked hook t) (htype : s.soType ≠ .packet) (hlist : t'.skList = s :: t.skList)
    (hpeek : t'.ethRecvPeek = t.ethRecvPeek) : Hooked hook t' := by
  have hpackets : t'.packets = t.packets := by
    rw [Table.packets, hlist, List.filter_cons_of_neg (by simpa using htype), Table.packets]
  refine ⟨hpackets ▸ h.pools, ?_⟩
  rw [hpackets, hpeek]
  exact h.chain

/-- A SOCK_PACKET socket is linked. -/
theorem Hooked.consPacket (h : Hooked hook t) (htype : s.soType = .packet)
    (hold : s.oldEthPeek = t.ethRecvPeek) (hpool : s.packetPool.isSome) (hlist : t'.skList = s :: t.skList)
    (hpeek : t'.ethRecvPeek = .peek) : Hooked hook t' := by
  have hpackets : t'.packets = s :: t.packets := by
    rw [Table.packets, hlist, List.filter_cons_of_pos (by simpa using htype), Table.packets]
  refine ⟨fun s' hs' => ?_, .inr ?_⟩
  · rw [hpackets] at hs'
    rcases List.mem_cons.mp hs' with rfl | hs'
    · exact hpool
    · exact h.pools s' hs'
  · rw [hpackets]
    rcases h.chain with ⟨hnone, heq⟩ | ⟨l, o, heq, hpeeks, ho, hp⟩
    · exact ⟨[], s, by rw [hnone]; rfl, fun _ hs' => absurd hs' List.not_mem_nil, hold.trans heq, hpeek⟩
    · refine ⟨s :: l, o, by rw [heq]; rfl, fun s' hs' => ?_, ho, hpeek⟩
      rcases List.mem_cons.mp hs' with rfl | hs'
      · exact hold.trans hp
      · exact hpeeks s' hs'

/-- A socket is deleted, the oldest SOCK_PACKET socket only when it is the last. -/
theorem hooked_sockDelFd (hd : Descriptors cfg t) (h : Hooked hook t) (ok : Bool)
    (hlast : ∀ o ∈ t.oldest, o.fd = fd → t.packets.length = 1) : Hooked hook (sockDelFd cfg ok fd t) := by
  have hlist := skList_sockDelFd hd ok fd
  have hpackets : (sockDelFd cfg ok fd t).packets = t.packets.filter fun s => s.fd ≠ fd := by
    rw [Table.packets, hlist, List.filter_comm, Table.packets]
  rcases sockDelFd_cases hd ok fd with ⟨-, heq⟩ | ⟨s, hs, hfd, heq⟩
  · rw [heq]
    exact h
  · have hpeek : (sockDelFd cfg ok fd t).ethRecvPeek =
        if s.soType = .packet then s.oldEthPeek else t.ethRecvPeek := by
      rw [heq, (sockCloseFd_same cfg fd _).2.1, skListDel, (onlyModes_delRxMode ok s _).ethRecvPeek]
      split_ifs <;> rfl
    refine ⟨fun s' hs' => ?_, ?_⟩
    · rw [hpackets] at hs'
      exact h.pools s' (List.mem_of_mem_filter hs')
    · rw [hpackets, hpeek]
      by_cases hp : s.soType = .packet
      · rw [if_pos hp]
        have hmem := mem_packets.mpr ⟨hs, hp⟩
        rcases h.chain with ⟨hnone, -⟩ | ⟨l, o, hlo, hpeeks, ho, -⟩
        · rw [hnone] at hmem
          exact absurd hmem List.not_mem_nil
        · by_cases hfdo : o.fd = fd
          · -- the oldest one: nothing else is open
            have hone := hlast o (by simp [Table.oldest, hlo]) hfdo
            have hnil : l = [] := by simpa [hlo] using hone
            have hso : s = o := by simpa [hlo, hnil] using hmem
            exact .inl ⟨by simp [hlo, hnil, hfdo], hso ▸ ho⟩
          · have hsl : s ∈ l := by
              rw [hlo, List.mem_append, List.mem_singleton] at hmem
              exact hmem.resolve_right fun hso => hfdo (hso ▸ hfd)
            refine .inr ⟨l.filter fun s => s.fd ≠ fd, o, ?_, fun s' hs' => ?_, ho, hpeeks s hsl⟩
            · rw [hlo, List.filter_append, List.filter_cons_of_pos (by simpa using hfdo), List.filter_nil]
            · exact hpeeks s' (List.mem_of_mem_filter hs')
      · have hsame : (t.packets.filter fun s => s.fd ≠ fd) = t.packets := by
          refine List.filter_eq_self.mpr fun s' hs' => ?_
          simp only [ne_eq, decide_eq_true_eq]
          intro hfd'
          have hmem := mem_packets.mp hs'
          exact hp (hd.inj hs hmem.1 (hfd.trans hfd'.symm) ▸ hmem.2)
        rw [if_neg hp, hsame]
        exact h.chain

/-! ## The calls -/

theorem hooked_setLocal (h : Hooked hook t) (fd : ℕ) : Hooked hook (setLocal fd t) := by
  refine h.map (f := fun s => if s.fd = fd then { s with localAddr := true } else s) ?_ ?_ ?_ rfl rfl <;>
    · intro s
      split_ifs <;> rfl

theorem hooked_receive (h : Hooked hook t) (fd : ℕ) : Hooked hook (receive fd t) := by
  refine h.map (f := fun s => if s.fd = fd ∧ s.soType = .packet then
    { s with packetPool := s.packetPool.map Ring.read } else s) ?_ ?_ ?_ rfl rfl <;>
    · intro s
      split_ifs <;> simp

/-- `socket` keeps the chain, unless it misses a ring. -/
theorem hooked_socketCall (h : Hooked hook t) (e : SockEnv) (family : Family) (type : Option SockType)
    (protocol : ℤ) (hpool : ∀ type', type = some type' → PoolFails cfg e family type' protocol t →
      t.packets = [] ∧ hook = .null) :
    Hooked hook (socketCall cfg e family type protocol t).1 := by
  rcases socketCall_cases cfg e family type protocol t with
    ⟨err, -, heq⟩ | ⟨type', type'', family', htype, hargs, hpacket, ⟨err, -, heq⟩ | ⟨proto, hproto, heq⟩⟩
  · rw [heq]
    exact h
  · rw [heq]
    have hm := onlyModes_setProto cfg e type'' (family' = .inet6) protocol t
    exact h.congr hm.skList hm.ethRecvPeek
  · have hm := onlyModes_setProto cfg e type'' (family' = .inet6) protocol t
    have hfails : ∀ hlt : vacantFd (setProto cfg e type'' (family' = .inet6) protocol t).1 < cfg.maxSockets,
        ¬ Allocates e type'' proto family' → e.callocSock ∧ type'' = .packet →
        PoolFails cfg e family type' protocol t := by
      rintro hlt hno ⟨hsock, rfl⟩
      rw [vacantFd_congr hm] at hlt
      refine ⟨by rw [hpacket], hargs, by rw [hpacket, hproto]; rfl, hlt, hsock, ?_⟩
      by_contra hproto'
      exact hno ⟨hsock, by simpa [addOk] using hproto'⟩
    rw [heq]
    generalize (setProto cfg e type'' (family' = .inet6) protocol t).1 = m at hm hfails
    have hend := socketAdd_outcome cfg e type'' proto family' m
    generalize (socketAdd cfg e type'' proto family' m).1 = u at hend ⊢
    generalize (socketAdd cfg e type'' proto family' m).2 = r at hend
    cases hend with
    | full => exact h.congr hm.skList hm.ethRecvPeek
    | lost _ hlt hadd hlist _ hpeek =>
      by_cases hmiss : e.callocSock ∧ type'' = .packet
      · have hnone := hpool type' htype (hfails hlt hadd hmiss)
        have hlist' := hlist.trans hm.skList
        rw [if_pos hmiss] at hpeek
        refine ⟨fun s hs => ?_, .inl ⟨?_, hpeek.trans hnone.2.symm⟩⟩
        · rw [Table.packets, hlist'] at hs
          exact h.pools s hs
        · rw [Table.packets, hlist']
          exact hnone.1
      · rw [if_neg hmiss] at hpeek
        exact h.congr (hlist.trans hm.skList) (hpeek.trans hm.ethRecvPeek)
    | made _ s _ _ hlist _ htype _ hpacket hpeek =>
      rw [hm.skList] at hlist
      by_cases hp : type'' = .packet
      · rw [if_pos hp] at hpeek
        exact h.consPacket (htype.trans hp) ((hpacket hp).1.trans hm.ethRecvPeek)
          (hpacket hp).2 hlist hpeek
      · rw [if_neg hp] at hpeek
        exact h.cons (htype ▸ hp) hlist (hpeek.trans hm.ethRecvPeek)

theorem oldest_ne (hd : Descriptors cfg t) {l : List Socket} (hlist : t.skList = s :: l)
    (htype : s.soType ≠ .packet) : ∀ o ∈ t.oldest, o.fd ≠ s.fd := by
  intro o ho hfd
  have hmem := mem_packets.mp (List.mem_of_getLast? ho)
  have hs : s ∈ t.skList := hlist ▸ List.mem_cons_self
  exact htype (hd.inj hmem.1 hs hfd ▸ hmem.2)

/-- `accept` adds no SOCK_PACKET socket, and deletes only the one it made. -/
theorem hooked_acceptCall (hd : Descriptors cfg t) (hf : Families t) (h : Hooked hook t) (e : SockEnv)
    (addrOk rxOk : Bool) (fd : ℕ) : Hooked hook (acceptCall cfg e addrOk rxOk fd t) := by
  rcases acceptCall_cases cfg e addrOk rxOk fd t with heq | ⟨s, hs, u, rfl, hcall⟩
  · rw [heq]
    exact h
  · have hfamily := hf s hs
    have hsock : Hooked hook (socketCall cfg e s.soFamily (some .stream) ipprotoTcp t).1 := by
      refine hooked_socketCall h e s.soFamily (some .stream) ipprotoTcp ?_
      rintro type' htype ⟨hpacket, -⟩
      simp only [Option.some.injEq] at htype
      rw [← htype, packetArgs, if_neg hfamily] at hpacket
      simp at hpacket
    rcases hcall with heq | ⟨newsock, hok, heq | heq⟩
    · rw [heq]
      exact hsock
    · rw [heq]
      exact hooked_setLocal hsock newsock
    · rw [heq]
      obtain ⟨s', hlist, rfl, htype, -⟩ := socketCall_made hfamily hok
      have hd' := descriptors_socketCall hd e s.soFamily (some .stream) ipprotoTcp
      refine hooked_sockDelFd hd' hsock rxOk fun o ho hfd => ?_
      exact absurd hfd (oldest_ne hd' hlist (by simp [htype]) o ho)

/-- `sock_daemon` deletes no SOCK_PACKET socket. -/
theorem hooked_sockDaemon (hd : Descriptors cfg t) (h : Hooked hook t) (rxOk : Bool) (gone : ℕ → Bool) :
    Hooked hook (sockDaemon cfg rxOk gone t) := by
  refine (sockDaemon_induct hd h rxOk gone fun u s hdu hu hs _ htype _ hsub => ?_).2
  refine hooked_sockDelFd hdu hu rxOk fun o ho hfd => ?_
  have hmem := mem_packets.mp (List.mem_of_getLast? ho)
  have hso := hd.inj (hsub o hmem.1) hs hfd
  rw [← hso, hmem.2] at htype
  simp at htype

/-! ## Frames -/

theorem takes_of_ne {data : List Byte} (h : s.soType ≠ .packet) : s.takes data = s := if_neg h

theorem hooked_ethArrived (h : Hooked hook t) (data : List Byte) : Hooked hook (ethArrived data t) := by
  obtain ⟨hpeek, hlist, -⟩ := ethArrived_same data t
  split_ifs at hlist
  · refine h.map (f := fun s => s.takes data) ?_ ?_ ?_ hlist hpeek <;>
      · intro s
        unfold Socket.takes
        split_ifs <;> simp
  · exact h.congr hlist hpeek

/-- In a chain every SOCK_PACKET socket takes the frame. -/
theorem Hooked.taken (h : Hooked hook t) (data : List Byte) :
    (ethArrived data t).skList = t.skList.map fun s => s.takes data := by
  rw [(ethArrived_same data t).2.1]
  rcases h.chain with ⟨hnone, -⟩ | ⟨l, o, -, -, -, hpeek⟩
  · have hid : (t.skList.map fun s => s.takes data) = t.skList := by
      refine (List.map_congr_left fun s hs => ?_).trans (List.map_id _)
      exact takes_of_ne fun hp => by simpa [hnone] using mem_packets.mpr ⟨hs, hp⟩
    rw [hid, ite_self]
  · rw [if_pos hpeek]

theorem mem_packets_of_hasRoom (h : s ∈ t.skList) (hroom : s.hasRoom = true) : s ∈ t.packets := by
  refine mem_packets.mpr ⟨h, ?_⟩
  by_contra hp
  simp [Socket.hasRoom, Socket.ring, hp] at hroom

/-- The last socket with room is the oldest one, if that has room. -/
theorem getLast_hasRoom {l : List Socket} {o : Socket} (h : t.packets = l ++ [o]) (hroom : o.hasRoom = true) :
    (t.skList.filter fun s => s.hasRoom).getLast? = some o := by
  have hfilter : (t.skList.filter fun s => s.hasRoom) = t.packets.filter fun s => s.hasRoom := by
    rw [Table.packets, List.filter_filter]
    refine List.filter_congr fun s hs => ?_
    by_cases hr : s.hasRoom = true
    · simp [hr, (mem_packets.mp (mem_packets_of_hasRoom hs hr)).2]
    · simp [hr]
  rw [hfilter, h, List.filter_append, List.filter_cons_of_pos hroom]
  simp

/-- The application's hook is called once, if the oldest socket has room. -/
theorem Hooked.app (h : Hooked hook t) (hhook : hook ≠ .peek) (data : List Byte)
    (hroom : hook = .app → ∀ o ∈ t.oldest, o.hasRoom = true) :
    (ethArrived data t).appGot = if hook = .app then t.appGot ++ [data] else t.appGot := by
  rcases h.chain with ⟨-, hpeek⟩ | ⟨l, o, hlo, hpeeks, ho, hpeek⟩
  · unfold ethArrived
    rw [hpeek]
    cases hook with
    | null => rfl
    | app => rfl
    | peek => exact absurd rfl hhook
  · simp only [ethArrived, hpeek, sockPacketPeek]
    cases hook with
    | null =>
      cases hlast : (t.skList.filter fun s => s.hasRoom).getLast? with
      | none => rfl
      | some s =>
        have hs := List.mem_filter.mp (List.mem_of_getLast? hlast)
        have hmem := mem_packets_of_hasRoom hs.1 hs.2
        rw [hlo, List.mem_append, List.mem_singleton] at hmem
        have hold : ¬ (s.oldEthPeek ≠ .null ∧ s.oldEthPeek ≠ .peek) := by
          rcases hmem with hs | rfl
          · simp [hpeeks s hs]
          · simp [ho]
        dsimp only
        rw [if_neg (hpeek ▸ hold)]
        rfl
    | app =>
      have hlast := getLast_hasRoom hlo (hroom rfl o (by simp [Table.oldest, hlo]))
      rw [hlast]
      simp only [ho]
      rfl
    | peek => exact absurd rfl hhook

/-! ## Runs -/

/-- What a run keeps. -/
structure PeekInv (cfg : Config) (hook : Hook) (t : Table) : Prop where
  descriptors : Descriptors cfg t
  families : Families t
  hooked : Hooked hook t

theorem peekInv_step (h : PeekInv cfg hook t) (op : Op) (hok : PeekOk cfg hook t op) :
    PeekInv cfg hook (step cfg t op) := by
  refine ⟨descriptors_step h.descriptors op, families_step h.descriptors h.families op, ?_⟩
  have hkeep : ∀ {u groups}, OnlyModes t u → Hooked hook { u with groups := groups } := fun hm =>
    h.hooked.congr hm.skList hm.ethRecvPeek
  cases op with
  | socket e family type protocol =>
    refine hooked_socketCall h.hooked e family type protocol fun type' htype hfails => ?_
    subst htype
    exact hok hfails
  | accept e addrOk rxOk fd => exact hooked_acceptCall h.descriptors h.families h.hooked e addrOk rxOk fd
  | setLocal fd => exact hooked_setLocal h.hooked fd
  | close rxOk how fd =>
    rcases closeS_cases cfg rxOk how fd t with heq | heq
    · rw [step, heq]
      exact h.hooked
    · rw [step, heq]
      exact hooked_sockDelFd h.descriptors h.hooked rxOk hok
  | daemon rxOk gone => exact hooked_sockDaemon h.descriptors h.hooked rxOk gone
  | frame data => exact hooked_ethArrived h.hooked data
  | receive fd => exact hooked_receive h.hooked fd
  | join e ok answer ip =>
    obtain ⟨u, groups, hm, heq⟩ := joinMcastGroup_eq e ok answer ip t
    rw [step, heq]
    exact hkeep hm
  | leave e ok answer ip =>
    obtain ⟨u, groups, hm, heq⟩ := leaveMcastGroup_eq e ok answer ip t
    rw [step, heq]
    exact hkeep hm

theorem watched_step (hhook : hook ≠ .peek) (h : PeekInv cfg hook t) (op : Op)
    (hok : PeekOk cfg hook t op) : Watched cfg hook t op where
  ring s hs := by
    have hp := (mem_packets.mp hs).2
    rw [Socket.ring, if_pos hp]
    exact (peekInv_step h op hok).hooked.pools s hs
  taken data := (peekInv_step h op hok).hooked.taken data
  app data hop := by
    subst hop
    exact h.hooked.app hhook data hok
  back hnone := by
    rcases (peekInv_step h op hok).hooked.chain with ⟨-, heq⟩ | ⟨l, o, heq, -⟩
    · exact heq
    · rw [hnone] at heq
      simp at heq

theorem peekInv_init (cfg : Config) (hook : Hook) : PeekInv cfg hook (initTable cfg hook) :=
  ⟨descriptors_init cfg hook, fun _ hs => absurd hs List.not_mem_nil,
    ⟨fun _ hs => absurd hs List.not_mem_nil, .inl ⟨rfl, rfl⟩⟩⟩

/-- **Frames are watched**: a run whose steps meet `PeekOk` keeps the law at every step. -/
theorem frames_watched (cfg : Config) (hhook : hook ≠ .peek) (ops : List Op)
    (hok : Always (step cfg) (PeekOk cfg hook) (initTable cfg hook) ops) :
    Always (step cfg) (Watched cfg hook) (initTable cfg hook) ops :=
  always_of_invariant (I := PeekInv cfg hook)
    (fun _ op h hq => ⟨peekInv_step h op hq, watched_step hhook h op hq⟩) ops
    (peekInv_init cfg hook) hok

/-- `socket (AF_PACKET, …)`. -/
def openPacket : Op := .socket {} .packet (some .raw) 0

/-- Of two SOCK_PACKET sockets the first is closed first: the other one gets no frames. -/
theorem frames_missed :
    ¬ Always (step {}) (Watched {} .app) (initTable {} .app) [openPacket, openPacket, .close true .lingers 3] := by
  rintro ⟨-, -, h, -⟩
  have hin := congrArg (List.map fun s => s.ring.map Ring.inIndex) (h.taken [1])
  exact absurd hin (by decide)

/-- The second one is closed first. -/
theorem frames_watched_lifo : Always (step {}) (Watched {} .app) (initTable {} .app)
    [openPacket, .frame [1], openPacket, .frame [2], .close true .lingers 4, .frame [3],
      .close true .lingers 3, .frame [4]] :=
  frames_watched {} (by decide) _ (by decide)

end Watt32.Sk
