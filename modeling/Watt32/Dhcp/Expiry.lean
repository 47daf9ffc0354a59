import Watt32.Dhcp.Lease

/-!
# The end of a lease

`lease_timeout` is set by `dhcp_set_timers`, and no state handler looks at it.

* `Watch`, `watchStep`: the client, with the lease it was last given.
* `GivenUp`, `ExpiryLawful`: once the lease has expired and the FSM has been run, the address is given
  up.
* `ExpiryOk`: the calls of `dhcp_fsm` of which this is true.
* **`expiry_lawful_iff`**: a run obeys the law exactly if all its calls are such.
-/

namespace Watt32.Dhcp

open Machine

/-! ## The lease -/

/-- A finite lease: when it expires, and its address. -/
structure FiniteLease where
  expires : ℕ
  addr : Dword
  deriving DecidableEq

/-- The client, and (a ghost) the last lease that was acknowledged, if it is finite. -/
structure Watch where
  d : Client := {}
  lease : Option FiniteLease := none

/-- The lease of an ACK that is accepted at `now`. -/
def leaseOf (now : Dword) (data : List Byte) (addr : Dword) : Option FiniteLease :=
  match ackOption data optIpAddrLeaseTime with
  | none => none
  | some l => if l = 0 ∨ l = never then none else some ⟨now.toNat + l.toNat, addr⟩

/-- The lease after a call of `dhcp_fsm`: that of the ACK, if it accepts one. -/
def leaseAfter (cfg : Config) (c : FsmCall) (w : Watch) : Option FiniteLease :=
  let d := receive cfg c w.d
  if eventIn cfg c w.d = some .ack ∧ w.d.state ≠ .bound ∧ d.state = .bound then
    leaseOf c.packet.time ((c.data.getD []).take sizeofDhcp) d.myIpAddr
  else w.lease

/-- One step. A transient configuration has the lease of an earlier run. -/
def watchStep (cfg : Config) (w : Watch) (op : Op) : Watch where
  d := step cfg w.d op
  lease :=
    match fsmCall w.d op, op with
    | some c, _ => leaseAfter cfg c w
    | none, .readConfig _ (some t) _ =>
      if w.d.fault ∨ w.d.boot.isSome then w.lease else some ⟨t.iplease.toNat, t.myIp⟩
    | none, _ => w.lease

/-! ## The law -/

/-- The client has a lease. -/
def Client.leased (d : Client) : Bool := d.state = .bound ∨ d.state = .renewing ∨ d.state = .rebinding

/-- The client has no lease, and not this address. -/
structure GivenUp (d : Client) (addr : Dword) : Prop where
  leased : d.leased = false
  address : addr ≠ 0 → d.myIpAddr ≠ addr
  noFault : d.fault = false

/-- The law at one step: once the clock has passed the end of the last lease and the FSM has been run,
the lease is given up. -/
def ExpiryLawful (cfg : Config) (w : Watch) (op : Op) : Prop :=
  ∀ c, fsmCall w.d op = some c → ∀ l, (watchStep cfg w op).lease = some l →
    l.expires < c.packet.time.toNat → GivenUp (watchStep cfg w op).d l.addr

/-! ## The condition -/

/-- The call has an ACK or a NAK. -/
def Answered (cfg : Config) (c : FsmCall) (d : Client) : Prop :=
  eventIn cfg c d = some .ack ∨ eventIn cfg c d = some .nak

/-- The call has a packet for `DHCP_offer` in SELECTING. -/
def Offered (cfg : Config) (c : FsmCall) (d : Client) : Prop :=
  eventIn cfg c d = some .offer ∧ d.gotOffer = false

instance (cfg : Config) (c : FsmCall) (d : Client) : Decidable (Offered cfg c d) :=
  inferInstanceAs (Decidable (_ ∧ _))

/-- The packet is an offer. -/
def HasOffer (d : Client) : Prop := ∃ i ∈ d.options, isOffer d.dhcpIn i = true

instance (d : Client) : Decidable (HasOffer d) :=
  inferInstanceAs (Decidable (∃ i ∈ d.options, isOffer d.dhcpIn i = true))

/-- The address of the client after a call in SELECTING. -/
def addressAfter (cfg : Config) (c : FsmCall) (d : Client) : Dword :=
  if Offered cfg c d ∧ HasOffer (readIn c d) then intel (readIn c d).dhcpIn 16 else d.myIpAddr

/-- The calls after which an expired lease is given up. -/
def ExpiryOk (cfg : Config) (c : FsmCall) (d : Client) (addr : Dword) : Prop :=
  match d.state with
  | .bound => False
  | .renewing | .rebinding => Answered cfg c d
  | .requesting => Answered cfg c d ∨ (addr ≠ 0 → d.myIpAddr ≠ addr)
  | .selecting =>
    (Offered cfg c d → NoOverload (readIn c d).dhcpIn) ∧ (addr ≠ 0 → addressAfter cfg c d ≠ addr)
  | .init => addr ≠ 0 → d.myIpAddr ≠ addr

/-- The condition at one step. -/
def CallsOk (cfg : Config) (w : Watch) (op : Op) : Prop :=
  ∀ c, fsmCall w.d op = some c → ∀ l, w.lease = some l → l.expires < c.packet.time.toNat →
    ExpiryOk cfg c w.d l.addr

/-! ## The timers -/

variable {cfg : Config} {c : FsmCall} {d d' : Client} {e : Env} {event : Event} {op : Op} {w : Watch}
  {addr : Dword}

/-- Having a lease, the address and the ghost are the same. -/
structure SameLease (d d' : Client) : Prop where
  leased : d'.leased = d.leased
  address : d'.myIpAddr = d.myIpAddr
  fault : d'.fault = d.fault

theorem SameLease.trans {d'' : Client} (h : SameLease d d') (h' : SameLease d' d'') :
    SameLease d d'' :=
  ⟨h'.leased.trans h.leased, h'.address.trans h.address, h'.fault.trans h.fault⟩

theorem SameLease.givenUp (h : SameLease d d') : GivenUp d' addr ↔ GivenUp d addr :=
  ⟨fun g => ⟨h.leased ▸ g.leased, h.address ▸ g.address, h.fault ▸ g.noFault⟩,
    fun g => ⟨h.leased.trans g.leased, h.address.symm ▸ g.address, h.fault.trans g.noFault⟩⟩

/-- No timer ends or begins a lease. -/
theorem dispatch_timer (h : event = .sendTimeout ∨ event = .t1Timeout ∨ event = .t2Timeout) :
    SameLease d (dispatch cfg e d event) := by
  unfold dispatch
  cases hs : d.state <;> rcases h with rfl | rfl | rfl <;>
    exact ⟨by simp [Client.leased, stateInit, stateSelecting, stateRequesting, stateBound, stateRenewing,
      stateRebinding, dhcpDiscover, dhcpRequest, dhcpSend, hs], rfl, rfl⟩

theorem checkSend_same : SameLease d (checkSend cfg c d) := by
  unfold checkSend
  split_ifs
  · have h : SameLease { d with sendTimeout := 0 } (dispatch cfg c.send { d with sendTimeout := 0 } .sendTimeout) :=
      dispatch_timer (.inl rfl)
    exact ⟨h.leased, h.address, h.fault⟩
  · exact ⟨rfl, rfl, rfl⟩

theorem checkT1_same : SameLease d (checkT1 cfg c d) := by
  unfold checkT1
  split_ifs
  · have h : SameLease { d with renewalTimeout := 0 } (dispatch cfg c.t1 { d with renewalTimeout := 0 } .t1Timeout) :=
      dispatch_timer (.inr (.inl rfl))
    exact ⟨h.leased, h.address, h.fault⟩
  · exact ⟨rfl, rfl, rfl⟩

theorem checkT2_same : SameLease d (checkT2 cfg c d) := by
  unfold checkT2
  split_ifs
  · have h : SameLease { d with rebindTimeout := 0 } (dispatch cfg c.t2 { d with rebindTimeout := 0 } .t2Timeout) :=
      dispatch_timer (.inr (.inr rfl))
    exact ⟨h.leased, h.address, h.fault⟩
  · exact ⟨rfl, rfl, rfl⟩

theorem dhcpFsm_same : SameLease (receive cfg c d) (dhcpFsm cfg c d) :=
  (checkSend_same.trans checkT1_same).trans checkT2_same

theorem bootEnd_same {written added : Bool} : SameLease d (bootEnd written added d) := by
  simp only [bootEnd]
  split_ifs <;> exact ⟨rfl, rfl, rfl⟩

theorem step_same (h : fsmCall d op = some c) : SameLease (receive cfg c d) (step cfg d op) := by
  rcases step_fsmCall cfg h with hs | ⟨_, _, _, _, hs⟩
  · rw [hs]
    exact dhcpFsm_same
  · rw [hs]
    refine dhcpFsm_same.trans ?_
    simp only [bootTurn]
    split_ifs
    · exact ⟨rfl, rfl, rfl⟩
    · exact bootEnd_same

/-! ## The packet -/

theorem givenUp_iff (hl : d.leased = false) (hf : d.fault = false) :
    GivenUp d addr ↔ (addr ≠ 0 → d.myIpAddr ≠ addr) :=
  ⟨fun h => h.address, fun h => ⟨hl, h, hf⟩⟩

theorem givenUp_toInit (hf : d.fault = false) : GivenUp (toInit e d) addr :=
  ⟨rfl, fun h h' => h h'.symm, hf⟩

theorem not_givenUp (hl : d.leased = true) : ¬ GivenUp d addr := fun h => by
  rw [h.leased] at hl
  cases hl

/-- In SELECTING. -/
theorem givenUp_selecting (hs : d.state = .selecting) (hf : d.fault = false) (hgot : d.gotOffer = false) :
    GivenUp (stateSelecting cfg e d .offer) addr ↔ NoOverload d.dhcpIn ∧
      (addr ≠ 0 → (if HasOffer d then intel d.dhcpIn 16 else d.myIpAddr) ≠ addr) := by
  have hoffer : HasOffer d ↔ (dhcpOffer d).gotOffer = true := by
    rw [dhcpOffer_gotOffer, hgot]
    simp [HasOffer]
  simp only [stateSelecting]
  rw [if_neg (by simp [hgot]), ← dhcpOffer_fault_iff hf]
  by_cases hh : HasOffer d
  · rw [if_pos (hoffer.mp hh), if_pos hh]
    refine ⟨fun h => ⟨h.noFault, ?_⟩, fun h => ⟨rfl, ?_, h.1⟩⟩
    · simpa only [takeOffer, dhcpOffer_dhcpIn] using h.address
    · simpa only [takeOffer, dhcpOffer_dhcpIn] using h.2
  · rw [if_neg (mt hoffer.mpr hh), if_neg hh]
    refine ⟨fun h => ⟨h.noFault, by simpa using h.address⟩, fun h => ⟨?_, by simpa using h.2, h.1⟩⟩
    simp [Client.leased, hs]

/-- A state that takes no packets only reads it. -/
theorem receive_ignored (hs : d.state = .init ∨ d.state = .bound) : receive cfg c d = readIn c d := by
  obtain ⟨m, hm⟩ := readIn_shape c d
  have hstate : (readIn c d).state = d.state := by rw [hm]
  rcases eventIn_cases cfg c d with h | h | h | h
  · exact receive_none h
  all_goals
    rw [receive_some h, dispatch, hstate]
    rcases hs with hs | hs <;> rw [hs] <;> rfl

/-- In SELECTING only a packet for `DHCP_offer` is more than read. -/
theorem receive_notOffered (hs : d.state = .selecting) (ho : ¬ Offered cfg c d) :
    receive cfg c d = readIn c d := by
  obtain ⟨m, hm⟩ := readIn_shape c d
  have hstate : (readIn c d).state = d.state := by rw [hm]
  rcases eventIn_cases cfg c d with h | h | h | h
  · exact receive_none h
  · rw [receive_some h, dispatch, hstate, hs]
    rfl
  · rw [receive_some h, dispatch, hstate, hs]
    rfl
  · have hgot : (readIn c d).gotOffer = true := by
      rw [hm]
      exact eq_true_of_ne_false fun hgot => ho ⟨h, hgot⟩
    rw [receive_some h, dispatch, hstate, hs]
    exact if_pos hgot

/-- A call that accepts no ACK gives up the lease exactly if it meets the condition. -/
theorem givenUp_receive (hf : d.fault = false) (hack : ¬ (eventIn cfg c d = some .ack ∧
    d.state ≠ .bound ∧ (receive cfg c d).state = .bound)) :
    GivenUp (receive cfg c d) addr ↔ ExpiryOk cfg c d addr := by
  obtain ⟨m, hm⟩ := readIn_shape c d
  have hf' : (readIn c d).fault = false := by rw [hm]; exact hf
  have haddr : (readIn c d).myIpAddr = d.myIpAddr := by rw [hm]
  have hstate : (readIn c d).state = d.state := by rw [hm]
  have hleased : (readIn c d).leased = d.leased := by rw [hm]; rfl
  unfold ExpiryOk
  cases hs : d.state with
  | init =>
    rw [receive_ignored (.inl hs), givenUp_iff (by rw [hleased]; simp [Client.leased, hs]) hf', haddr]
  | bound =>
    rw [receive_ignored (.inr hs)]
    exact iff_of_false (not_givenUp (by rw [hleased]; simp [Client.leased, hs])) not_false
  | selecting =>
    have hread : GivenUp (readIn c d) addr ↔ (addr ≠ 0 → d.myIpAddr ≠ addr) := by
      rw [givenUp_iff (by rw [hleased]; simp [Client.leased, hs]) hf', haddr]
    by_cases ho : Offered cfg c d
    · have hsel : GivenUp (stateSelecting cfg c.packet (readIn c d) .offer) addr ↔ _ :=
        givenUp_selecting (hstate.trans hs) hf' (by rw [hm]; exact ho.2)
      have hafter : addressAfter cfg c d =
          if HasOffer (readIn c d) then intel (readIn c d).dhcpIn 16 else (readIn c d).myIpAddr := by
        simp [addressAfter, ho, haddr]
      rw [receive_some ho.1, dispatch, hstate, hs, hafter]
      exact hsel.trans (and_congr_left' ⟨fun h _ => h, fun h => h ho⟩)
    · have hafter : addressAfter cfg c d = d.myIpAddr := if_neg fun h => ho h.1
      rw [receive_notOffered hs ho, hread, hafter]
      exact ⟨fun h => ⟨fun h' => absurd h' ho, h⟩, fun h => h.2⟩
  | requesting =>
    have hread : GivenUp (readIn c d) addr ↔ (addr ≠ 0 → d.myIpAddr ≠ addr) := by
      rw [givenUp_iff (by rw [hleased]; simp [Client.leased, hs]) hf', haddr]
    rcases eventIn_cases cfg c d with h | h | h | h
    · rw [receive_none h, hread]
      simp [Answered, h]
    · have harp : dhcpArpCheck cfg c.packet = false := by
        by_contra harp
        refine hack ⟨h, by simp [hs], ?_⟩
        rw [receive_some h, dispatch, hstate, hs]
        simp only [stateRequesting]
        rw [if_neg harp]
      rw [receive_some h, dispatch, hstate, hs]
      simp only [stateRequesting]
      rw [if_pos harp]
      exact iff_of_true (givenUp_toInit hf') (.inl (.inl h))
    · rw [receive_some h, dispatch, hstate, hs]
      exact iff_of_true (givenUp_toInit hf') (.inl (.inr h))
    · rw [receive_some h, dispatch, hstate, hs]
      simp [Answered, h, stateRequesting, hread]
  | renewing | rebinding =>
    have hlive : (readIn c d).leased = true := by
      rw [hleased]
      simp [Client.leased, hs]
    rcases eventIn_cases cfg c d with h | h | h | h
    · rw [receive_none h]
      exact iff_of_false (not_givenUp hlive) (by simp [Answered, h])
    · refine absurd ⟨h, by simp [hs], ?_⟩ hack
      rw [receive_some h, dispatch, hstate, hs]
      rfl
    · rw [receive_some h, dispatch, hstate, hs]
      exact iff_of_true (givenUp_toInit hf') (.inr h)
    · rw [receive_some h, dispatch, hstate, hs]
      exact iff_of_false (not_givenUp hlive) (by simp [Answered, h])

/-- An ACK that leads to BOUND answers a request. -/
theorem expiryOk_of_ack (h : eventIn cfg c d = some .ack) (hne : d.state ≠ .bound)
    (hb : (receive cfg c d).state = .bound) : ExpiryOk cfg c d addr := by
  obtain ⟨m, hm⟩ := readIn_shape c d
  have hstate : (readIn c d).state = d.state := by rw [hm]
  unfold ExpiryOk
  cases hs : d.state with
  | init =>
    rw [receive_ignored (.inl hs), hstate, hs] at hb
    cases hb
  | selecting =>
    rw [receive_some h, dispatch, hstate, hs] at hb
    replace hb : (readIn c d).state = .bound := hb
    rw [hstate, hs] at hb
    cases hb
  | bound => exact absurd hs hne
  | requesting => exact .inl (.inl h)
  | renewing | rebinding => exact .inl h

/-- An ACK that is accepted begins a lease that has not expired. -/
theorem leaseOf_expires {now : Dword} {data : List Byte} {l : FiniteLease}
    (h : leaseOf now data addr = some l) : now.toNat < l.expires := by
  unfold leaseOf at h
  split at h
  · cases h
  · rename_i v _
    split_ifs at h with hv
    cases h
    have : v.toNat ≠ 0 := fun h0 => hv (.inl (BitVec.eq_of_toNat_eq h0))
    simp only
    omega

theorem watchStep_lease (h : fsmCall w.d op = some c) :
    (watchStep cfg w op).lease = leaseAfter cfg c w := by
  simp only [watchStep, h]

/-- The law of one call holds exactly if the call meets the condition. -/
theorem expiry_iff (w : Watch) (op : Op) : ExpiryLawful cfg w op ↔ CallsOk cfg w op := by
  refine forall_congr' fun c => forall_congr' fun hc => ?_
  have hgiven (a : Dword) : GivenUp (watchStep cfg w op).d a ↔ GivenUp (receive cfg c w.d) a :=
    (step_same hc).givenUp
  simp only [watchStep_lease hc, hgiven, leaseAfter]
  by_cases hack : eventIn cfg c w.d = some .ack ∧ w.d.state ≠ .bound ∧ (receive cfg c w.d).state = .bound
  · rw [if_pos hack]
    refine iff_of_true (fun l hl hx => ?_) fun l hl hx => ?_
    · have := leaseOf_expires hl
      omega
    · exact expiryOk_of_ack hack.1 hack.2.1 hack.2.2
  · rw [if_neg hack]
    simp only [givenUp_receive (fsmCall_noFault hc) hack]

/-- **No expired lease is used** along a run, from any state of the client, exactly if all calls of
`dhcp_fsm` meet the condition. -/
theorem expiry_lawful_iff (cfg : Config) (w : Watch) (ops : List Op) :
    Always (watchStep cfg) (ExpiryLawful cfg) w ops ↔ Always (watchStep cfg) (CallsOk cfg) w ops :=
  always_iff_of_invariant (I := fun _ => True) (fun _ _ _ _ => trivial) (fun w op _ => expiry_iff w op)
    ops trivial

/-- The lease of 80 seconds that starts at 100 is in use at 200, when nobody answers. -/
theorem expired_in_use : ¬ Always (watchStep ourConfig) (ExpiryLawful ourConfig) {}
    (bootOps ++ [.daemon { t1 := { time := 140 } },
      .daemon { packet := { time := 200 }, t1 := { time := 200 }, t2 := { time := 200 } }]) := by
  rintro ⟨-, -, -, -, -, h, -⟩
  have hup := h { packet := { time := 200 }, t1 := { time := 200 }, t2 := { time := 200 } }
    (fsmCall_daemon (by decide +kernel) (by decide +kernel) _) ⟨180, 0x0a000002⟩ (by decide +kernel)
    (by decide +kernel)
  exact absurd hup.leased (by decide +kernel)

end Watt32.Dhcp
