import Watt32.Arp.Insert
import Watt32.Arp.Flags

/-!
# Hosts on a LAN

Hosts with an ARP cache each, and all ARP packets they have sent. The network loses, repeats, delays and reorders
them, and brings any of them to any host.

* `arpSendRequest`, `arpReplyTo`, `sends`: the packets that the functions of `pcarp.c` send.
* `Lan`, `stepLan`: the hosts and their steps.
* `Owns`: a host has an address; `LanOk`: who a host is does not change, and nobody makes up packets.
* **`lan_agreement`**: what a cache answers for an address is the hardware address of a host that has it.
-/

namespace Watt32.Arp

open Slots Machine Timer

deriving instance DecidableEq for ArpPacket

/-! ## Packets out -/

/-- `arp_send_request`. -/
def arpSendRequest (e : Env) (ip : Dword) : ArpPacket where
  macDst := ethBrdcast
  hwType := e.hwType
  opcode := arpRequest
  srcEthAddr := e.ethAddr
  srcIpAddr := e.myIpAddr
  dstEthAddr := 0
  dstIpAddr := ip

/-- `_arp_reply`. -/
def arpReplyTo (e : Env) (eDst : Mac) (srcIp dstIp : Dword) : ArpPacket where
  macDst := eDst
  hwType := e.hwType
  opcode := arpReply
  srcEthAddr := e.ethAddr
  srcIpAddr := srcIp
  dstEthAddr := eDst
  dstIpAddr := dstIp

/-- The request for `ip` when the driver takes it. -/
def requested (e : Env) (ip : Dword) : List ArpPacket := if e.sent ip then [arpSendRequest e ip] else []

/-- What `LAN_start_lookup` sends. -/
def lanStartLookupSends (e : Env) (c : ArpCache) (ip : Dword) : List ArpPacket :=
  if (c.search ip c.firstPending arpTopOfCache).isSome then []
  else if (c.search ip c.firstDynamic c.firstFree).isSome then []
  else if (c.search ip 0 c.firstDynamic).isSome then []
  else if c.firstFree < c.firstPending ∨ c.firstDynamic < c.firstFree then requested e ip
  else []

/-- What `arp_check_timeouts` sends for the pending entries from `i` on. -/
def checkPendingSends (e : Env) (c : ArpCache) (i : ℤ) : List ArpPacket :=
  if i < arpTopOfCache then
    if chkTimeout e.now (c.list i).expiry then
      if c.firstPending < i then
        checkPendingSends e { (c.release i).moveEntry i c.firstPending with
          firstPending := c.firstPending + 1 } i
      else checkPendingSends e { c with firstPending := c.firstPending + 1 } (i + 1)
    else if chkTimeout e.now (c.list i).retransmitTo then
      requested e (c.list i).ip ++ checkPendingSends e (c.upd i fun ae => { ae with
        retransmitTo := setTimeout e.now
          (if e.sent ae.ip then e.arpRexmitTo else e.arpRexmitTo / 4) }) (i + 1)
    else checkPendingSends e c (i + 1)
  else []
termination_by (arpTopOfCache - i).toNat + (arpTopOfCache - c.firstPending).toNat
decreasing_by
  all_goals (try dsimp only [ArpCache.moveEntry, ArpCache.release, ArpCache.upd]); omega

/-- What `_arp_handler` sends. -/
def arpHandlerSends (e : Env) (ah : ArpPacket) : List ArpPacket :=
  if headerOk e ah ∧ doReply e ah then [arpReplyTo e ah.srcEthAddr ah.dstIpAddr ah.srcIpAddr] else []

/-- What an operation sends. -/
def sends (c : ArpCache) (ev : ArpEvent) : List ArpPacket :=
  match ev.op with
  | .startLookup ip => lanStartLookupSends ev.e c ip
  | .add _ _ _ | .del _ => []
  | .packet ah => arpHandlerSends ev.e ah
  | .timeouts _ => checkPendingSends ev.e c c.firstPending

/-! ## The system -/

/-- The caches of the hosts and the packets sent. -/
structure Lan (ι : Type*) where
  caches : ι → ArpCache
  wire : List ArpPacket

/-- An operation of a host, or a gratuitous reply as `_arp_check_gateways` and `DHCP_arp_check` send it. -/
inductive LanEvent (ι : Type*)
  | arp (i : ι) (ev : ArpEvent)
  | announce (i : ι) (e : Env) (dstIp : Dword)

section System

variable {ι : Type*} [DecidableEq ι]

/-- One step of the LAN. -/
def stepLan (l : Lan ι) : LanEvent ι → Lan ι
  | .arp i ev =>
    { caches := Function.update l.caches i (stepArp (l.caches i) ev)
      wire := l.wire ++ sends (l.caches i) ev }
  | .announce _ e dstIp => { l with wire := l.wire ++ [arpReplyTo e ethBrdcast e.myIpAddr dstIp] }

/-- Empty caches, nothing sent. -/
def Lan.start : Lan ι := ⟨fun _ => .empty, []⟩

/-- The host has the address. -/
def Owns (e : Env) (ip : Dword) : Prop :=
  ip = e.myIpAddr ∨
    ip4IsLocalAddr e ip ∧ ip4IsMulticast ip = false ∧ ip4IsLoopbackAddr ip = false

/-- The same host, at another time. -/
structure Env.Is (e h : Env) : Prop where
  myIpAddr : e.myIpAddr = h.myIpAddr
  sinMask : e.sinMask = h.sinMask
  multihomes : e.multihomes = h.multihomes
  ethAddr : e.ethAddr = h.ethAddr
  hwType : e.hwType = h.hwType

/-- `eth` is the hardware address of a host that has the address `ip`. -/
def Truth (who : ι → Env) (ip : Dword) (eth : Mac) : Prop := ∃ j, eth = (who j).ethAddr ∧ Owns (who j) ip

/-- Who a host is does not change; the packets that arrive were sent, and the entries that the user adds
are true. -/
def LanOk (who : ι → Env) (l : Lan ι) : LanEvent ι → Prop
  | .announce i e _ => e.Is (who i)
  | .arp i ev => ev.e.Is (who i) ∧
    match ev.op with
    | .packet ah => ah ∈ l.wire
    | .add ip eth _ => Truth who ip eth
    | _ => True

end System

/-! ## What a cache answers -/

/-- The resolved entries meet `P`. -/
def ArpCache.Answers (P : Dword → Mac → Prop) (c : ArpCache) : Prop :=
  ∀ k, 0 ≤ k → k < c.firstFree → P (c.list k).ip (c.list k).hardware

section Answers

variable {P : Dword → Mac → Prop} {e : Env} {c c' : ArpCache} {σ : ℤ → ℤ} {d i : ℤ} {ip : Dword} {eth : Mac}
  {ah : ArpPacket}

/-- Entries that are moved around or dropped. -/
theorem Rearranged.answers (h : c.WellFormed) (hr : Rearranged c c' σ d) (ha : c.Answers P) : c'.Answers P := by
  have hnonneg := h.dynamic_nonneg
  have hfree := h.free
  intro j hj hjf
  have hs := hr.same j (.inl ⟨hj, hjf⟩)
  rw [hs.ip, hs.hardware]
  rcases lt_or_ge j c'.firstDynamic with hd | hd
  · obtain ⟨h₀, h₁⟩ := hr.fixed j hj hd
    exact ha _ h₀ (by omega)
  · obtain ⟨h₀, h₁⟩ := hr.dynamic j hd hjf
    exact ha _ (by omega) h₁

theorem addPending_answers (hroom : c.firstFree < c.firstPending) (ha : c.Answers P) :
    (addPending e c ip).Answers P := by
  intro k hk hkf
  have hne : k ≠ c.firstPending - 1 := by
    change k < c.firstFree at hkf
    omega
  unfold addPending ArpCache.upd
  dsimp only
  rw [Function.update_of_ne hne]
  exact ha k hk hkf

theorem addDynamic_answers (ha : c.Answers P) (hp : P ip eth) : (addDynamic e c ip eth).Answers P := by
  intro k hk hkf
  change k < c.firstFree + 1 at hkf
  unfold addDynamic ArpCache.upd
  dsimp only
  rw [Function.update_apply]
  split_ifs with hlast
  · exact hp
  · exact ha k hk (by omega)

theorem addFixed_answers (h : c.WellFormed) (ha : c.Answers P) (hp : P ip eth) : (addFixed c ip eth).Answers P := by
  have hnonneg := h.dynamic_nonneg
  have hfree := h.free
  unfold addFixed
  dsimp only
  rw [move_into (by omega)]
  intro k hk hkf
  change k < c.firstFree + 1 at hkf
  unfold ArpCache.upd ArpCache.moveEntry
  dsimp only
  rw [Function.update_apply]
  split_ifs with hself
  · exact hp
  · rw [move_apply]
    split_ifs with hlast
    · exact ha _ hnonneg (by omega)
    · exact ha k hk (by omega)

theorem arpCacheAdd_answers (h : c.WellFormed) (ha : c.Answers P) {expires : Bool} (hp : P ip eth) :
    (arpCacheAdd e c ip eth expires).1.Answers P := by
  obtain ⟨σ, d, hr, -⟩ := arpCacheDel_rearranged h ip
  have hw := hr.wellFormed h
  have hdel := hr.answers h ha
  unfold arpCacheAdd
  dsimp only
  split_ifs with hlan hexp hfull hfull hnone
  · exact ha
  · exact hdel
  · exact addDynamic_answers hdel hp
  · exact hdel
  · have hpop := popDynamic_rearranged hw (not_le.mp hnone)
    exact addFixed_answers (hpop.wellFormed hw) (hpop.answers hw hdel) hp
  · exact addFixed_answers hw hdel hp

theorem lanStartLookup_answers (h : c.WellFormed) (ha : c.Answers P) : (lanStartLookup e c ip).1.Answers P := by
  unfold lanStartLookup
  split_ifs with _ _ _ hroom hpop
  · exact ha
  · exact ha
  · exact ha
  · exact addPending_answers hroom ha
  · have hpend := h.pending
    exact addPending_answers (by dsimp only; omega) ((popDynamic_rearranged h hpop).answers h ha)
  · exact ha

theorem checkPending_answers (h : c.WellFormed) (hi : c.firstPending ≤ i) (ha : c.Answers P) :
    (checkPending e c i).Answers P := by
  refine checkPending_rule (P := fun c _ r => c.WellFormed → c.Answers P → r.Answers P) ?_ ?_ ?_ hi h ha
  · exact fun _ _ _ _ ha => ha
  · intro c i r hi hit _ ih h ha
    have hr := takePending_rearranged h hi hit
    exact ih (hr.wellFormed h) (hr.answers h ha)
  · intro c i r t _ _ _ ih h ha
    have hr := (Rearranged.refl h).upd (i := i) (f := fun ae => { ae with retransmitTo := t })
      fun _ => ⟨rfl, rfl, rfl, rfl, id⟩
    exact ih (hr.wellFormed h) (hr.answers h ha)

theorem checkDynamic_answers (h : c.WellFormed) (hi : c.firstDynamic ≤ i) (ha : c.Answers P) :
    (checkDynamic e c i).Answers P := by
  refine checkDynamic_rule (P := fun c _ r => c.WellFormed → c.Answers P → r.Answers P) ?_ ?_ ?_ hi h ha
  · exact fun _ _ _ _ ha => ha
  · intro c i r hi hif _ ih h ha
    have hr := fillDynamic_rearranged h hi hif
    exact ih (hr.wellFormed h) (hr.answers h ha)
  · exact fun _ _ _ _ _ _ ih => ih

theorem arpHandler_answers (h : c.WellFormed) (ha : c.Answers P) (hp : P ah.srcIpAddr ah.srcEthAddr) :
    (arpHandler e c ah).1.Answers P := by
  obtain heq | ⟨i, -, hi, heq⟩ | ⟨i, -, heq⟩ | ⟨-, -, -, heq⟩ := arpHandler_cases e c ah <;> rw [heq]
  · exact ha
  · obtain ⟨hi, hit, -⟩ := search_eq_some hi
    have hr := (takePending_rearranged h hi hit).upd (i := i) (f := fun ae =>
      { ae with flags := { ae.flags with inuse := false, pending := false } })
      fun _ => ⟨rfl, rfl, rfl, rfl, fun hp => by cases hp⟩
    exact arpCacheAdd_answers (hr.wellFormed h) (hr.answers h ha) hp
  · have hr : Rearranged c (refreshDynamic e c ah i) id (-1) :=
      (Rearranged.refl h).upd fun _ => ⟨rfl, rfl, rfl, rfl, id⟩
    exact hr.answers h ha
  · exact arpCacheAdd_answers h ha hp

/-- **One operation**: the answers meet `P` if what is added and what arrives does. -/
theorem stepArp_answers {ev : ArpEvent} (h : c.WellFormed) (ha : c.Answers P)
    (hadd : ∀ ip eth expires, ev.op = .add ip eth expires → P ip eth)
    (hpacket : ∀ ah, ev.op = .packet ah → P ah.srcIpAddr ah.srcEthAddr) : (stepArp c ev).Answers P := by
  unfold stepArp
  cases hop : ev.op <;> dsimp only
  case startLookup ip => exact lanStartLookup_answers h ha
  case add ip eth expires => exact arpCacheAdd_answers h ha (hadd ip eth expires hop)
  case del ip =>
    obtain ⟨σ, d, hr, -⟩ := arpCacheDel_rearranged h ip
    exact hr.answers h ha
  case packet ah => exact arpHandler_answers h ha (hpacket ah hop)
  case timeouts checkDynamicEntries =>
    have hw : (checkPending ev.e c c.firstPending).WellFormed := checkPending_wellFormed h le_rfl
    have hp : (checkPending ev.e c c.firstPending).Answers P := checkPending_answers h le_rfl ha
    unfold arpCheckTimeouts
    dsimp only
    split_ifs
    · exact checkDynamic_answers hw le_rfl hp
    · exact hp

end Answers

/-! ## What is sent -/

/-- The packet says who its sender is. -/
structure Genuine (e : Env) (p : ArpPacket) : Prop where
  eth : p.srcEthAddr = e.ethAddr
  ip : Owns e p.srcIpAddr

section Sent

variable {e h : Env} {c : ArpCache} {i : ℤ} {ip : Dword} {p ah : ArpPacket}

theorem requested_genuine (hp : p ∈ requested e ip) : Genuine e p := by
  unfold requested at hp
  split_ifs at hp
  · rw [List.mem_singleton.mp hp]
    exact ⟨rfl, .inl rfl⟩
  · simp at hp

theorem checkPendingSends_genuine (hp : p ∈ checkPendingSends e c i) : Genuine e p := by
  induction c, i using checkPendingSends.induct e with
  | case1 c i hit hexp hlt ih =>
    unfold checkPendingSends at hp
    rw [if_pos hit, if_pos hexp, if_pos hlt] at hp
    exact ih hp
  | case2 c i hit hexp hlt ih =>
    unfold checkPendingSends at hp
    rw [if_pos hit, if_pos hexp, if_neg hlt] at hp
    exact ih hp
  | case3 c i hit hexp hre ih =>
    unfold checkPendingSends at hp
    rw [if_pos hit, if_neg hexp, if_pos hre] at hp
    exact (List.mem_append.mp hp).elim requested_genuine ih
  | case4 c i hit hexp hre ih =>
    unfold checkPendingSends at hp
    rw [if_pos hit, if_neg hexp, if_neg hre] at hp
    exact ih hp
  | case5 c i hit =>
    unfold checkPendingSends at hp
    rw [if_neg hit] at hp
    simp at hp

/-- A reply is sent from an address of the host. -/
theorem arpHandlerSends_genuine (hp : p ∈ arpHandlerSends e ah) : Genuine e p := by
  unfold arpHandlerSends at hp
  split_ifs at hp with hreply
  · rw [List.mem_singleton.mp hp]
    have hdo := hreply.2
    unfold doReply at hdo
    exact ⟨rfl, .inr (of_decide_eq_true hdo).2.1⟩
  · simp at hp

/-- **A host sends its own addresses.** -/
theorem sends_genuine {ev : ArpEvent} (hp : p ∈ sends c ev) : Genuine ev.e p := by
  unfold sends at hp
  cases hop : ev.op <;> rw [hop] at hp <;> dsimp only at hp
  case startLookup ip =>
    unfold lanStartLookupSends at hp
    split_ifs at hp
    all_goals first
      | exact requested_genuine hp
      | simp at hp
  case packet ah => exact arpHandlerSends_genuine hp
  case timeouts => exact checkPendingSends_genuine hp
  all_goals simp at hp

theorem Env.Is.owns (he : e.Is h) : Owns e ip ↔ Owns h ip := by
  unfold Owns ip4IsLocalAddr ip4IsMultihomeAddr
  rw [he.myIpAddr, he.sinMask, he.multihomes]

end Sent

/-! ## The LAN -/

section Agreement

variable {ι : Type*} {who : ι → Env}

theorem Genuine.truth {e : Env} {p : ArpPacket} {i : ι} (hp : Genuine e p) (he : e.Is (who i)) :
    Truth who p.srcIpAddr p.srcEthAddr := ⟨i, hp.eth.trans he.ethAddr, he.owns.mp hp.ip⟩

/-- The invariant of the LAN. -/
structure Lan.Inv (who : ι → Env) (l : Lan ι) : Prop where
  wellFormed : ∀ i, (l.caches i).WellFormed
  answers : ∀ i, (l.caches i).Answers (Truth who)
  wire : ∀ p ∈ l.wire, Truth who p.srcIpAddr p.srcEthAddr

theorem Lan.start_inv : (Lan.start : Lan ι).Inv who := by
  refine ⟨fun _ => empty_wellFormed, fun _ k hk hkf => ?_, by simp [Lan.start]⟩
  change k < 0 at hkf
  omega

theorem Lan.Inv.truth {l : Lan ι} (h : l.Inv who) {i : ι} {ip : Dword} {eth : Mac}
    (hl : lanLookup (l.caches i) ip = some eth) : Truth who ip eth := by
  obtain ⟨k, hk, hkf, rfl, rfl⟩ := (lanLookup_eq_some (h.wellFormed i)).mp hl
  exact h.answers i k hk hkf

variable [DecidableEq ι]

theorem Lan.Inv.step {l : Lan ι} {ev : LanEvent ι} (h : l.Inv who) (hok : LanOk who l ev) :
    (stepLan l ev).Inv who := by
  cases ev with
  | announce i e dstIp =>
    refine ⟨h.wellFormed, h.answers, fun p hp => ?_⟩
    rcases List.mem_append.mp hp with hp | hp
    · exact h.wire p hp
    · rw [List.mem_singleton.mp hp]
      exact Genuine.truth ⟨rfl, .inl rfl⟩ hok
  | arp i ev =>
    obtain ⟨he, hop⟩ := hok
    refine ⟨fun j => ?_, fun j => ?_, fun p hp => ?_⟩
    · unfold stepLan
      dsimp only
      rw [Function.update_apply]
      split_ifs
      · exact stepArp_wellFormed (h.wellFormed i) ev
      · exact h.wellFormed j
    · unfold stepLan
      dsimp only
      rw [Function.update_apply]
      split_ifs
      · refine stepArp_answers (h.wellFormed i) (h.answers i) (fun ip eth expires hadd => ?_) fun ah hpacket => ?_
        · rw [hadd] at hop
          exact hop
        · rw [hpacket] at hop
          exact h.wire ah hop
      · exact h.answers j
    · rcases List.mem_append.mp hp with hp | hp
      · exact h.wire p hp
      · exact (sends_genuine hp).truth he

theorem Lan.run_inv {evs : List (LanEvent ι)} (hok : Always stepLan (LanOk who) .start evs) :
    (run stepLan .start evs).Inv who :=
  run_invariant (I := Lan.Inv who) (fun _ _ h hok => h.step hok) evs Lan.start_inv hok

/-- **Agreement on the LAN**: whatever the network does to the packets and the hosts to their caches, what a
cache answers for an address is the hardware address of a host that has this address. -/
theorem lan_agreement (who : ι → Env) (evs : List (LanEvent ι)) (hok : Always stepLan (LanOk who) .start evs)
    (i : ι) (ip : Dword) (eth : Mac) (h : lanLookup ((run stepLan .start evs).caches i) ip = some eth) :
    Truth who ip eth := (Lan.run_inv hok).truth h

end Agreement

/-- Two hosts. -/
def lanHost (b : Bool) : Env where
  myIpAddr := if b then 0x0a000002 else 0x0a000001
  sinMask := 0xffffff00
  ethAddr := if b then 0x020000000002 else 0x020000000001

/-- The first host looks the second one up. -/
def lanExchange : List (LanEvent Bool) :=
  [.arp false ⟨lanHost false, .startLookup 0x0a000002⟩,
    .arp true ⟨lanHost true, .packet (arpSendRequest (lanHost false) 0x0a000002)⟩,
    .arp false ⟨lanHost false, .packet (arpReplyTo (lanHost true) 0x020000000001 0x0a000002 0x0a000001)⟩]

theorem lanExchange_ok : Always stepLan (LanOk lanHost) .start lanExchange := by
  refine ⟨⟨⟨rfl, rfl, rfl, rfl, rfl⟩, trivial⟩, ⟨⟨rfl, rfl, rfl, rfl, rfl⟩, ?_⟩, ⟨⟨rfl, rfl, rfl, rfl, rfl⟩, ?_⟩, trivial⟩
  · change _ ∈ Lan.wire _
    decide +kernel
  · change _ ∈ Lan.wire _
    decide +kernel

theorem lan_agreement_exchange : Truth lanHost 0x0a000002 0x020000000002 :=
  lan_agreement lanHost lanExchange lanExchange_ok false _ _ (by decide +kernel)

end Watt32.Arp
