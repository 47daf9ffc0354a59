import Watt32.Sk.Calls
import Watt32.Lib.Run

/-!
# The descriptor table

* `Descriptors`: the socket list, the `inuse` bits and `sk_last` are in step.
* `SameFds`: what most of the code does to the three, which is nothing.
* `Allocated`: between `sock_alloc_fd` and the end of `socket`, one bit has no socket yet.
* **`descriptors_in_step`**: every run keeps the table in step, and `socket` finds no descriptor only
  when all are in use.
-/

namespace Watt32.Sk

open Machine

variable {cfg : Config} {t t' u : Table} {fd : ℕ}

/-- The descriptors of the sockets in the list. -/
def Table.fds (t : Table) : List ℕ := t.skList.map Socket.fd

/-- The list, the bits and `sk_last` are in step. -/
structure Descriptors (cfg : Config) (t : Table) : Prop where
  nodup : t.fds.Nodup
  inuse : ∀ fd, t.inuse fd = true ↔ fd ∈ t.fds
  below : ∀ fd, t.inuse fd = true → skFirst ≤ fd ∧ fd < t.skLast
  first : skFirst ≤ t.skLast
  bound : t.skLast ≤ cfg.maxSockets

/-! ## What leaves the table alone -/

/-- The descriptors of `t'` are those of `t`. -/
structure SameFds (t t' : Table) : Prop where
  fds : t'.fds = t.fds
  inuse : t'.inuse = t.inuse
  skLast : t'.skLast = t.skLast

theorem SameFds.refl (t : Table) : SameFds t t := ⟨rfl, rfl, rfl⟩

theorem OnlyModes.sameFds (h : OnlyModes t t') : SameFds t t' :=
  ⟨congrArg (List.map Socket.fd) h.skList, h.inuse, h.skLast⟩

theorem Descriptors.congr (h : Descriptors cfg t) (hs : SameFds t t') : Descriptors cfg t' where
  nodup := hs.fds ▸ h.nodup
  inuse fd := by rw [hs.inuse, hs.fds]; exact h.inuse fd
  below fd := by rw [hs.inuse, hs.skLast]; exact h.below fd
  first := hs.skLast ▸ h.first
  bound := hs.skLast ▸ h.bound

theorem sameFds_hookPacket (t : Table) : SameFds t (hookPacket t) := by
  refine ⟨?_, rfl, rfl⟩
  cases h : t.skList with
  | nil => simp [hookPacket, Table.fds, h]
  | cons s l => simp only [hookPacket, Table.fds, h, List.modify_zero_cons, List.map_cons]

/-- A change of each socket that keeps its descriptor. -/
theorem fds_map (t : Table) (f : Socket → Socket) (hf : ∀ s, (f s).fd = s.fd) :
    (t.skList.map f).map Socket.fd = t.fds := by
  rw [List.map_map]
  exact List.map_congr_left fun s _ => hf s

theorem sameFds_setLocal (fd : ℕ) (t : Table) : SameFds t (setLocal fd t) :=
  ⟨fds_map t _ fun s => by split_ifs <;> rfl, rfl, rfl⟩

theorem sameFds_receive (fd : ℕ) (t : Table) : SameFds t (receive fd t) :=
  ⟨fds_map t _ fun s => by split_ifs <;> rfl, rfl, rfl⟩

theorem sameFds_ethArrived (frame : List Byte) (t : Table) : SameFds t (ethArrived frame t) := by
  obtain ⟨-, hlist, hin, hlast⟩ := ethArrived_same frame t
  refine ⟨?_, hin, hlast⟩
  rw [Table.fds, hlist]
  split_ifs
  · exact fds_map t _ fun s => by unfold Socket.takes; split_ifs <;> rfl
  · rfl

theorem sameFds_joinMcastGroup (e : Igmp.CallEnv) (ok : Bool) (answer : ListAnswer) (ip : Dword)
    (t : Table) : SameFds t (joinMcastGroup e ok answer ip t) := by
  obtain ⟨u, groups, h, heq⟩ := joinMcastGroup_eq e ok answer ip t
  rw [heq]
  exact ⟨h.sameFds.fds, h.inuse, h.skLast⟩

theorem sameFds_leaveMcastGroup (e : Igmp.CallEnv) (ok : Bool) (answer : ListAnswer) (ip : Dword)
    (t : Table) : SameFds t (leaveMcastGroup e ok answer ip t) := by
  obtain ⟨u, groups, h, heq⟩ := leaveMcastGroup_eq e ok answer ip t
  rw [heq]
  exact ⟨h.sameFds.fds, h.inuse, h.skLast⟩

/-! ## Releasing -/

/-- A socket that is in the list is found. -/
theorem exists_find (h : fd ∈ t.fds) : ∃ s, t.find fd = some s ∧ s ∈ t.skList ∧ s.fd = fd := by
  obtain ⟨s, hs, hfd⟩ := List.mem_map.mp h
  have hsome : (t.find fd).isSome := List.find?_isSome.mpr ⟨s, hs, by simpa using hfd⟩
  obtain ⟨s', hs'⟩ := Option.isSome_iff_exists.mp hsome
  exact ⟨s', hs', List.mem_of_find?_eq_some hs', by simpa using List.find?_some hs'⟩

theorem fds_skListDel (fd : ℕ) (t : Table) : (skListDel fd t).fds = t.fds.erase fd := by
  rw [Table.fds, Table.fds, List.erase_eq_eraseP', List.eraseP_map]
  rfl

/-- Between `sock_alloc_fd` and the end of `socket`: `fd` is marked, but no socket has it. -/
structure Allocated (cfg : Config) (fd : ℕ) (t : Table) : Prop where
  fresh : fd ∉ t.fds
  nodup : t.fds.Nodup
  inuse : ∀ fd', t.inuse fd' = true ↔ fd' = fd ∨ fd' ∈ t.fds
  below : ∀ fd', t.inuse fd' = true → skFirst ≤ fd' ∧ fd' < t.skLast
  bound : t.skLast ≤ cfg.maxSockets

theorem Allocated.congr (h : Allocated cfg fd t) (hs : SameFds t t') : Allocated cfg fd t' where
  fresh := hs.fds ▸ h.fresh
  nodup := hs.fds ▸ h.nodup
  inuse fd' := by rw [hs.inuse, hs.fds]; exact h.inuse fd'
  below fd' := by rw [hs.inuse, hs.skLast]; exact h.below fd'
  bound := hs.skLast ▸ h.bound

/-- `sock_close_fd` on a descriptor that no socket has. -/
theorem Allocated.release (h : Allocated cfg fd t) : Descriptors cfg (sockCloseFd cfg fd t) := by
  have hfd := h.below fd ((h.inuse fd).mpr (.inl rfl))
  have hlt : fd < cfg.maxSockets := lt_of_lt_of_le hfd.2 h.bound
  unfold sockCloseFd
  rw [if_pos ⟨hfd.1, hlt⟩]
  refine ⟨h.nodup, fun fd' => ?_, fun fd' hin => ?_, ?_, ?_⟩
  · by_cases heq : fd' = fd
    · subst heq
      exact iff_of_false (by simp) h.fresh
    · simp only [Function.update_of_ne heq, h.inuse, heq, false_or]
      rfl
  · by_cases heq : fd' = fd
    · simp [heq] at hin
    · have hold := h.below fd' (by simpa [heq] using hin)
      refine ⟨hold.1, ?_⟩
      dsimp only
      split_ifs <;> omega
  · dsimp only
    split_ifs <;> omega
  · have := h.bound
    dsimp only
    split_ifs <;> omega

/-- A socket with the new descriptor is linked. -/
theorem Allocated.link (h : Allocated cfg fd t) (hfds : t'.fds = fd :: t.fds) (hin : t'.inuse = t.inuse)
    (hlast : t'.skLast = t.skLast) : Descriptors cfg t' where
  nodup := by rw [hfds]; exact List.nodup_cons.mpr ⟨h.fresh, h.nodup⟩
  inuse fd' := by rw [hin, hfds, List.mem_cons]; exact h.inuse fd'
  below fd' := by rw [hin, hlast]; exact h.below fd'
  first := by
    have := h.below fd ((h.inuse fd).mpr (.inl rfl))
    omega
  bound := hlast ▸ h.bound

/-- A socket is unlinked. -/
theorem Descriptors.unlink (h : Descriptors cfg t) (hfd : fd ∈ t.fds) :
    Allocated cfg fd (skListDel fd t) where
  fresh := by rw [fds_skListDel]; exact h.nodup.not_mem_erase
  nodup := by rw [fds_skListDel]; exact h.nodup.erase fd
  inuse fd' := by
    rw [fds_skListDel, h.nodup.mem_erase_iff]
    refine (h.inuse fd').trans ?_
    by_cases heq : fd' = fd
    · simp [heq, hfd]
    · simp [heq]
  below := h.below
  bound := h.bound

/-- In a table in step, `_sock_del_fd` deletes the socket with the descriptor, if there is one. -/
theorem sockDelFd_cases (h : Descriptors cfg t) (ok : Bool) (fd : ℕ) :
    fd ∉ t.fds ∧ sockDelFd cfg ok fd t = t ∨ ∃ s ∈ t.skList, s.fd = fd ∧ sockDelFd cfg ok fd t =
      sockCloseFd cfg fd (skListDel fd
        (delRxMode ok s (if s.soType = .packet then sockPacketDel s t else t))) := by
  unfold sockDelFd
  by_cases hguard : fd < skFirst ∨ t.skLast ≤ fd ∨ t.inuse fd = false
  · refine .inl ⟨fun hmem => ?_, if_pos hguard⟩
    have hin := (h.inuse fd).mpr hmem
    have hbelow := h.below fd hin
    simp only [hin, Bool.true_eq_false, or_false] at hguard
    omega
  · have hin : fd ∈ t.fds := (h.inuse fd).mp (by simp_all)
    obtain ⟨s, hfind, hs, hfd⟩ := exists_find hin
    rw [if_neg hguard, hfind]
    exact .inr ⟨s, hs, hfd, rfl⟩

theorem descriptors_sockDelFd (h : Descriptors cfg t) (ok : Bool) (fd : ℕ) :
    Descriptors cfg (sockDelFd cfg ok fd t) := by
  rcases sockDelFd_cases h ok fd with ⟨-, heq⟩ | ⟨s, hs, hfd, heq⟩
  · rw [heq]
    exact h
  · have hin : fd ∈ t.fds := hfd ▸ List.mem_map_of_mem hs
    have hpeek : SameFds t (if s.soType = .packet then sockPacketDel s t else t) := by
      split_ifs
      · exact ⟨rfl, rfl, rfl⟩
      · exact .refl t
    have hmode := (onlyModes_delRxMode ok s (if s.soType = .packet then sockPacketDel s t else t)).sameFds
    rw [heq]
    exact (((h.congr hpeek).congr hmode).unlink (hmode.fds ▸ hpeek.fds ▸ hin)).release

/-- The sockets that are left. -/
theorem Descriptors.skListDel_eq (h : Descriptors cfg t) (fd : ℕ) :
    (skListDel fd t).skList = t.skList.filter fun s => s.fd ≠ fd := by
  have hnodup := h.nodup
  unfold skListDel
  rw [Table.fds] at hnodup
  generalize t.skList = l at hnodup ⊢
  induction l with
  | nil => rfl
  | cons s l ih =>
    rw [List.map_cons, List.nodup_cons] at hnodup
    by_cases hfd : s.fd = fd
    · have hall : ∀ s' ∈ l, s'.fd ≠ fd := fun s' hs' heq =>
        hnodup.1 (List.mem_map.mpr ⟨s', hs', heq.trans hfd.symm⟩)
      simp only [hfd, decide_true, List.eraseP_cons_of_pos, ne_eq, not_true_eq_false, decide_false,
        Bool.false_eq_true, not_false_eq_true, List.filter_cons_of_neg]
      exact (List.filter_eq_self.mpr fun s' hs' => by simpa using hall s' hs').symm
    · simpa [hfd] using ih hnodup.2

theorem skList_sockDelFd (h : Descriptors cfg t) (ok : Bool) (fd : ℕ) :
    (sockDelFd cfg ok fd t).skList = t.skList.filter fun s => s.fd ≠ fd := by
  rcases sockDelFd_cases h ok fd with ⟨hno, heq⟩ | ⟨s, -, -, heq⟩
  · rw [heq]
    refine (List.filter_eq_self.mpr fun s hs => ?_).symm
    simpa using fun heq : s.fd = fd => hno (heq ▸ List.mem_map_of_mem hs)
  · rw [heq, (sockCloseFd_same cfg fd _).1, skListDel, (onlyModes_delRxMode ok s _).skList,
      ← h.skListDel_eq fd, skListDel]
    split_ifs <;> rfl

/-- Sockets with the same descriptor are the same. -/
theorem Descriptors.inj (h : Descriptors cfg t) {s s' : Socket} (hs : s ∈ t.skList) (hs' : s' ∈ t.skList)
    (hfd : s.fd = s'.fd) : s = s' :=
  List.inj_on_of_nodup_map h.nodup hs hs' hfd

/-! ## Allocating -/

/-- Either the loop stops at a descriptor without a mark, or all are marked. -/
theorem vacantFd_spec (h : Descriptors cfg t) :
    (skFirst ≤ vacantFd t ∧ vacantFd t < t.skLast ∧ t.inuse (vacantFd t) = false) ∨
      (vacantFd t = t.skLast ∧ ∀ fd, skFirst ≤ fd → fd < t.skLast → t.inuse fd = true) := by
  unfold vacantFd
  cases hfind : (List.range' skFirst (t.skLast - skFirst)).find? fun fd =>
      ¬ t.inuse fd ∧ (t.find fd).isNone with
  | some fd =>
    have hrange := List.mem_range'_1.mp (List.mem_of_find?_eq_some hfind)
    have hfree := List.find?_some hfind
    have := h.first
    simp only [Option.getD_some]
    refine .inl ⟨hrange.1, by omega, ?_⟩
    simp only [decide_eq_true_eq] at hfree
    simpa using hfree.1
  | none =>
    refine .inr ⟨by simp [h.first], fun fd hlo hhi => ?_⟩
    have hnone := List.find?_eq_none.mp hfind fd (List.mem_range'_1.mpr ⟨hlo, by omega⟩)
    by_contra hfree
    have hnot : fd ∉ t.fds := fun hmem => hfree ((h.inuse fd).mpr hmem)
    refine hnone (decide_eq_true ⟨hfree, ?_⟩)
    rw [Option.isNone_iff_eq_none]
    refine List.find?_eq_none.mpr fun s hs hfd => hnot (List.mem_map.mpr ⟨s, hs, ?_⟩)
    simpa using hfd

theorem allocated_sockAllocFd (h : Descriptors cfg t) (hlt : vacantFd t < cfg.maxSockets) :
    Allocated cfg (vacantFd t) (sockAllocFd cfg t).1 := by
  have hspec : skFirst ≤ vacantFd t ∧ t.inuse (vacantFd t) = false ∧
      (vacantFd t < t.skLast ∨ vacantFd t = t.skLast) := by
    rcases vacantFd_spec h with ⟨hlo, hhi, hfree⟩ | ⟨heq, -⟩
    · exact ⟨hlo, hfree, .inl hhi⟩
    · refine ⟨heq ▸ h.first, ?_, .inr heq⟩
      by_contra hin
      have := (h.below (vacantFd t) (by simpa using hin)).2
      omega
  obtain ⟨hlo, hfree, hlast⟩ := hspec
  have hnot : vacantFd t ∉ t.fds := fun hmem => by simp [(h.inuse _).mpr hmem] at hfree
  have hbound := h.bound
  unfold sockAllocFd
  rw [if_pos hlt]
  refine ⟨hnot, h.nodup, fun fd' => ?_, fun fd' hin => ?_, ?_⟩
  · by_cases heq : fd' = vacantFd t
    · simp [heq]
    · simp only [Function.update_of_ne heq, h.inuse, heq, false_or]
      rfl
  · by_cases heq : fd' = vacantFd t
    · rw [heq]
      refine ⟨hlo, ?_⟩
      dsimp only
      split_ifs <;> omega
    · have hold := h.below fd' (by simpa [heq] using hin)
      refine ⟨hold.1, ?_⟩
      dsimp only
      split_ifs <;> omega
  · dsimp only
    split_ifs <;> omega

section

variable {e : SockEnv} {type : SockType} {proto : ℤ} {family : Family}

theorem descriptors_socketAdd (h : Descriptors cfg t) :
    Descriptors cfg (socketAdd cfg e type proto family t).1 := by
  by_cases hlt : vacantFd t < cfg.maxSockets
  · have halloc := allocated_sockAllocFd h hlt
    by_cases hadd : Allocates e type proto family
    · rw [socketAdd_linked hlt hadd, socklistAdd_linked hadd]
      dsimp only
      split_ifs
      · refine Descriptors.congr ?_ (sameFds_hookPacket _)
        exact halloc.link rfl rfl rfl
      · exact halloc.link rfl rfl rfl
    · rw [socketAdd_lost hlt hadd, socklistAdd_lost hadd]
      refine (halloc.congr ?_).release
      split_ifs
      · exact ⟨rfl, rfl, rfl⟩
      · exact .refl _
  · rw [socketAdd_full hlt]
    exact h

/-- `socket` fails for want of a descriptor only when all are in use. -/
theorem socketAdd_emfile (h : Descriptors cfg t)
    (hfail : (socketAdd cfg e type proto family t).2 = .error .emfile) :
    ∀ fd, skFirst ≤ fd → fd < cfg.maxSockets → t.inuse fd = true := by
  have hfull : ¬ vacantFd t < cfg.maxSockets := by
    have hend := socketAdd_outcome cfg e type proto family t
    generalize (socketAdd cfg e type proto family t).1 = u at hend
    rw [hfail] at hend
    cases hend with
    | full hfull => exact hfull
  rcases vacantFd_spec h with ⟨-, hhi, -⟩ | ⟨heq, hall⟩
  · exact absurd (lt_of_lt_of_le hhi h.bound) hfull
  · intro fd hlo hhi
    exact hall fd hlo (by omega)

end

theorem descriptors_socketCall (h : Descriptors cfg t) (e : SockEnv) (family : Family)
    (type : Option SockType) (protocol : ℤ) :
    Descriptors cfg (socketCall cfg e family type protocol t).1 := by
  rcases socketCall_cases cfg e family type protocol t with
    ⟨err, -, heq⟩ | ⟨-, type', family', -, -, -, ⟨err, -, heq⟩ | ⟨proto, -, heq⟩⟩
  · rw [heq]
    exact h
  · rw [heq]
    exact h.congr (onlyModes_setProto cfg e type' _ protocol t).sameFds
  · rw [heq]
    exact descriptors_socketAdd (h.congr (onlyModes_setProto cfg e type' _ protocol t).sameFds)

theorem setProto_ne_emfile (e : SockEnv) (type : SockType) (isIp6 : Bool) (protocol : ℤ) (t : Table) :
    (setProto cfg e type isIp6 protocol t).2 ≠ .error .emfile := by
  have hproto : protoOf type protocol ≠ .error .emfile := by
    unfold protoOf
    cases type with
    | stream => dsimp only; split_ifs <;> simp
    | dgram => dsimp only; split_ifs <;> simp
    | raw => simp
    | packet => simp
  simp only [setProto]
  generalize (if cfg.useIpv6 ∧ isIp6 then sockSetMcastRxMode cfg e.rxOk t else (t, true)) = r
  by_cases hr : r.2 = false
  · simp [hr]
  · rw [if_neg hr]
    by_cases hp : type = .packet
    · rw [if_pos hp]
      dsimp only
      split_ifs
      · exact hproto
      · simp
    · rw [if_neg hp]
      exact hproto

theorem socketCall_emfile (h : Descriptors cfg t) {e : SockEnv} {family : Family}
    {type : Option SockType} {protocol : ℤ}
    (hfail : (socketCall cfg e family type protocol t).2 = .error .emfile) :
    ∀ fd, skFirst ≤ fd → fd < cfg.maxSockets → t.inuse fd = true := by
  rcases socketCall_cases cfg e family type protocol t with
    ⟨err, hne, heq⟩ | ⟨-, type', family', -, -, -, ⟨err, herr, heq⟩ | ⟨proto, -, heq⟩⟩
  · rw [heq] at hfail
    exact absurd (by simpa using hfail) hne
  · rw [heq] at hfail
    have hemfile : err = .emfile := by simpa using hfail
    exact absurd (hemfile ▸ herr) (setProto_ne_emfile e type' _ protocol t)
  · rw [heq] at hfail
    have hsame := (onlyModes_setProto cfg e type' (family' = .inet6) protocol t).sameFds
    have hall := socketAdd_emfile (h.congr hsame) hfail
    rwa [hsame.inuse] at hall

/-! ## Runs -/

theorem descriptors_acceptCall (h : Descriptors cfg t) (e : SockEnv) (addrOk rxOk : Bool) (fd : ℕ) :
    Descriptors cfg (acceptCall cfg e addrOk rxOk fd t) := by
  rcases acceptCall_cases cfg e addrOk rxOk fd t with
    heq | ⟨s, -, u, rfl, heq | ⟨newsock, -, heq | heq⟩⟩
  · rw [heq]
    exact h
  · rw [heq]
    exact descriptors_socketCall h e s.soFamily _ _
  · rw [heq]
    exact (descriptors_socketCall h e s.soFamily _ _).congr (sameFds_setLocal newsock _)
  · rw [heq]
    exact descriptors_sockDelFd (descriptors_socketCall h e s.soFamily _ _) rxOk newsock

theorem descriptors_closeS (h : Descriptors cfg t) (rxOk : Bool) (how : CloseHow) (fd : ℕ) :
    Descriptors cfg (closeS cfg rxOk how fd t) := by
  rcases closeS_cases cfg rxOk how fd t with heq | heq
  · rw [heq]
    exact h
  · rw [heq]
    exact descriptors_sockDelFd h rxOk fd

/-- What every deletion of a bound stream or datagram socket keeps, a pass of `sock_daemon` keeps. -/
theorem sockDaemon_induct {J : Table → Prop} (h : Descriptors cfg t) (hJ : J t) (rxOk : Bool)
    (gone : ℕ → Bool) (hdel : ∀ u s, Descriptors cfg u → J u → s ∈ t.skList → s.localAddr = true →
      s.soType = .stream ∨ s.soType = .dgram → gone s.fd = true → (∀ s' ∈ u.skList, s' ∈ t.skList) →
      J (sockDelFd cfg rxOk s.fd u)) :
    Descriptors cfg (sockDaemon cfg rxOk gone t) ∧ J (sockDaemon cfg rxOk gone t) := by
  have hall : Descriptors cfg (sockDaemon cfg rxOk gone t) ∧ J (sockDaemon cfg rxOk gone t) ∧
      ∀ s' ∈ (sockDaemon cfg rxOk gone t).skList, s' ∈ t.skList := by
    refine List.foldlRecOn (motive := fun u => Descriptors cfg u ∧ J u ∧ ∀ s' ∈ u.skList, s' ∈ t.skList)
      t.skList _ ⟨h, hJ, fun _ hs => hs⟩ fun u hu s hs => ?_
    split_ifs with hgone
    · refine ⟨descriptors_sockDelFd hu.1 rxOk s.fd,
        hdel u s hu.1 hu.2.1 hs hgone.2.1 hgone.2.2.1 hgone.2.2.2 hu.2.2, fun s' hs' => hu.2.2 s' ?_⟩
      rw [skList_sockDelFd hu.1] at hs'
      exact List.mem_of_mem_filter hs'
    · exact hu
  exact ⟨hall.1, hall.2.1⟩

theorem descriptors_sockDaemon (h : Descriptors cfg t) (rxOk : Bool) (gone : ℕ → Bool) :
    Descriptors cfg (sockDaemon cfg rxOk gone t) :=
  (sockDaemon_induct (J := fun _ => True) h trivial rxOk gone fun _ _ _ _ _ _ _ _ _ => trivial).1

/-- Every step keeps the table in step. -/
theorem descriptors_step (h : Descriptors cfg t) (op : Op) : Descriptors cfg (step cfg t op) := by
  cases op with
  | socket e family type protocol => exact descriptors_socketCall h e family type protocol
  | accept e addrOk rxOk fd => exact descriptors_acceptCall h e addrOk rxOk fd
  | setLocal fd => exact h.congr (sameFds_setLocal fd t)
  | close rxOk how fd => exact descriptors_closeS h rxOk how fd
  | daemon rxOk gone => exact descriptors_sockDaemon h rxOk gone
  | frame data => exact h.congr (sameFds_ethArrived data t)
  | receive fd => exact h.congr (sameFds_receive fd t)
  | join e ok answer ip => exact h.congr (sameFds_joinMcastGroup e ok answer ip t)
  | leave e ok answer ip => exact h.congr (sameFds_leaveMcastGroup e ok answer ip t)

/-! ## The families -/

/-- No socket is of AF_PACKET. -/
def Families (t : Table) : Prop := ∀ s ∈ t.skList, s.soFamily ≠ .packet

theorem Families.map (h : Families t) {f : Socket → Socket} (hf : ∀ s, (f s).soFamily = s.soFamily)
    (hlist : t'.skList = t.skList.map f) : Families t' := by
  intro s hs
  rw [hlist] at hs
  obtain ⟨s', hs', rfl⟩ := List.mem_map.mp hs
  rw [hf]
  exact h s' hs'

theorem Families.congr (h : Families t) (hlist : t'.skList = t.skList) : Families t' := by
  intro s hs
  exact h s (hlist ▸ hs)

theorem families_sockDelFd (hd : Descriptors cfg t) (h : Families t) (ok : Bool) (fd : ℕ) :
    Families (sockDelFd cfg ok fd t) := by
  intro s hs
  rw [skList_sockDelFd hd] at hs
  exact h s (List.mem_of_mem_filter hs)

theorem families_socketCall (h : Families t) (e : SockEnv) (family : Family) (type : Option SockType)
    (protocol : ℤ) : Families (socketCall cfg e family type protocol t).1 := by
  rcases socketCall_cases cfg e family type protocol t with
    ⟨err, -, heq⟩ | ⟨_, type', family', -, -, hpacket, ⟨err, -, heq⟩ | ⟨proto, -, heq⟩⟩
  · rw [heq]
    exact h
  · rw [heq]
    exact h.congr (onlyModes_setProto cfg e type' _ protocol t).skList
  · rw [heq]
    have hm := h.congr (onlyModes_setProto cfg e type' (family' = .inet6) protocol t).skList
    generalize (setProto cfg e type' (family' = .inet6) protocol t).1 = m at hm
    have hend := socketAdd_outcome cfg e type' proto family' m
    generalize (socketAdd cfg e type' proto family' m).1 = u at hend ⊢
    generalize (socketAdd cfg e type' proto family' m).2 = r at hend
    cases hend with
    | full => exact hm
    | lost _ _ _ hlist => exact hm.congr hlist
    | made _ s _ _ hlist _ _ hfamily =>
      intro s' hs'
      rw [hlist] at hs'
      rcases List.mem_cons.mp hs' with rfl | hs'
      · rw [hfamily]
        exact packetArgs_family hpacket
      · exact hm s' hs'

theorem families_setLocal (h : Families t) (fd : ℕ) : Families (setLocal fd t) :=
  h.map (fun s => by split_ifs <;> rfl) rfl

theorem families_step (hd : Descriptors cfg t) (h : Families t) (op : Op) : Families (step cfg t op) := by
  cases op with
  | socket e family type protocol => exact families_socketCall h e family type protocol
  | accept e addrOk rxOk fd =>
    rcases acceptCall_cases cfg e addrOk rxOk fd t with
      heq | ⟨s, -, u, rfl, heq | ⟨newsock, -, heq | heq⟩⟩
    · rw [step, heq]
      exact h
    · rw [step, heq]
      exact families_socketCall h e s.soFamily _ _
    · rw [step, heq]
      exact families_setLocal (families_socketCall h e s.soFamily _ _) newsock
    · rw [step, heq]
      exact families_sockDelFd (descriptors_socketCall hd e s.soFamily _ _)
        (families_socketCall h e s.soFamily _ _) rxOk newsock
  | setLocal fd => exact families_setLocal h fd
  | close rxOk how fd =>
    rcases closeS_cases cfg rxOk how fd t with heq | heq
    · rw [step, heq]
      exact h
    · rw [step, heq]
      exact families_sockDelFd hd h rxOk fd
  | daemon rxOk gone =>
    exact (sockDaemon_induct hd h rxOk gone fun _ s hdu hu _ _ _ _ _ =>
      families_sockDelFd hdu hu rxOk s.fd).2
  | frame data =>
    have hlist := (ethArrived_same data t).2.1
    split_ifs at hlist
    · exact h.map (fun s => by unfold Socket.takes; split_ifs <;> rfl) hlist
    · exact h.congr hlist
  | receive fd => exact h.map (fun s => by split_ifs <;> rfl) rfl
  | join e ok answer ip =>
    obtain ⟨u, groups, hm, heq⟩ := joinMcastGroup_eq e ok answer ip t
    rw [step, heq]
    exact h.congr hm.skList
  | leave e ok answer ip =>
    obtain ⟨u, groups, hm, heq⟩ := leaveMcastGroup_eq e ok answer ip t
    rw [step, heq]
    exact h.congr hm.skList

/-! ## Runs of the table -/

theorem descriptors_init (cfg : Config) (hook : Hook) : Descriptors cfg (initTable cfg hook) := by
  have := cfg.fits
  refine ⟨List.nodup_nil, fun fd => by simp [initTable, Table.fds], fun fd hin => by simp [initTable] at hin,
    ?_, ?_⟩
  · unfold initTable skFirst
    dsimp only
    split_ifs <;> omega
  · unfold initTable skFirst
    dsimp only
    split_ifs <;> omega

theorem descriptors_run (cfg : Config) (hook : Hook) (ops : List Op) :
    Descriptors cfg (run (step cfg) (initTable cfg hook) ops) :=
  run_invariant (I := Descriptors cfg) (Q := fun _ _ => True) (fun _ op h _ => descriptors_step h op) ops
    (descriptors_init cfg hook) (always_true ops)

/-- **The descriptor table stays in step**: in every state that a run reaches the descriptors are
distinct, a bit is set exactly for those of the sockets in the list, all are below `sk_last`, and
`socket` fails with EMFILE only when all descriptors are in use. -/
theorem descriptors_in_step (cfg : Config) (hook : Hook) (ops : List Op) :
    Descriptors cfg (run (step cfg) (initTable cfg hook) ops) ∧
      ∀ (e : SockEnv) (family : Family) (type : Option SockType) (protocol : ℤ),
        (socketCall cfg e family type protocol (run (step cfg) (initTable cfg hook) ops)).2 =
          .error .emfile →
        ∀ fd, skFirst ≤ fd → fd < cfg.maxSockets →
          (run (step cfg) (initTable cfg hook) ops).inuse fd = true :=
  ⟨descriptors_run cfg hook ops, fun _ _ _ _ hfail => socketCall_emfile (descriptors_run cfg hook ops) hfail⟩

end Watt32.Sk
