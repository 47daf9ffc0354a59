import Watt32.Dhcp.Expiry

/-!
# A fresh offer

`got_offer` is set by `DHCP_offer`. It is reset at T1 in BOUND and at the end of `DHCP_do_boot` only.
What an offer has set beside it is never reset.

* `Track`, `trackStep`: the client, and whether an offer was received and whether one was refused.
* `TakesOffers`, `Cleared`: in SELECTING the next offer is taken, and nothing is left of a refused one.
* `FreshOk`, `ClearOk`: the steps that keep it so.
* **`fresh_offers`**: the laws hold along every run of such steps.
-/

namespace Watt32.Dhcp

open Machine

/-! ## The law -/

/-- The client, and (ghosts) whether a packet for `DHCP_offer` was received since SELECTING was entered,
and whether the last offer was refused. -/
structure Track where
  d : Client := {}
  offered : Bool := false
  refused : Bool := false

/-- The call enters SELECTING. -/
def entersSelecting (cfg : Config) (c : FsmCall) (d : Client) : Bool :=
  let d := receive cfg c d
  (d.state = .init ∨ d.state = .selecting) ∧
    (d.sendTimeout = never ∨ Timer.chkTimeout c.send.msec d.sendTimeout)

/-- An offer has been received, after a call. -/
def offeredAfter (cfg : Config) (c : FsmCall) (t : Track) : Bool :=
  if entersSelecting cfg c t.d then false
  else t.offered || (t.d.state = .selecting ∧ eventIn cfg c t.d = some .offer)

/-- The last offer is refused, after a call. -/
def refusedAfter (cfg : Config) (c : FsmCall) (t : Track) : Bool :=
  if t.d.state = .requesting ∧ (receive cfg c t.d).state = .init then true
  else if t.d.state = .selecting ∧ Offered cfg c t.d then false
  else t.refused

/-- One step. A transient configuration takes the place of an offer. -/
def trackStep (cfg : Config) (t : Track) (op : Op) : Track :=
  let d := step cfg t.d op
  match fsmCall t.d op, op with
  | some c, _ => ⟨d, offeredAfter cfg c t, refusedAfter cfg c t⟩
  | none, .readConfig _ (some _) _ => ⟨d, t.offered, t.refused && (t.d.fault || t.d.boot.isSome)⟩
  | none, _ => ⟨d, t.offered, t.refused⟩

/-- A call with a valid offer. -/
structure ValidOffer (cfg : Config) (c : FsmCall) (d : Client) : Prop where
  event : eventIn cfg c d = some .offer
  offer : HasOffer (readIn c d)
  noOverload : NoOverload (readIn c d).dhcpIn

/-- In SELECTING, with no offer since it was entered: `got_offer` is FALSE, the address of a refused
offer is cleared, and the next valid offer leads to REQUESTING. -/
structure TakesOffers (cfg : Config) (t : Track) : Prop where
  gotOffer : t.d.state = .selecting → t.offered = false → t.d.gotOffer = false
  address : t.d.state = .selecting → t.offered = false → t.refused = true → t.d.myIpAddr = 0
  next : t.d.state = .selecting → t.offered = false → ∀ c, ValidOffer cfg c t.d →
    (receive cfg c t.d).state = .requesting ∧ (receive cfg c t.d).fault = t.d.fault

/-- What an offer sets beside the address is clear. -/
structure DataClear (d : Client) : Prop where
  server : d.dhcpServer = 0
  lease : d.dhcpIplease = 0
  renewal : d.dhcpRenewal = 0
  rebind : d.dhcpRebind = 0

/-- In SELECTING, with no offer since it was entered, the rest of a refused offer is cleared. -/
def Cleared (t : Track) : Prop :=
  t.d.state = .selecting → t.offered = false → t.refused = true → DataClear t.d

/-- The law of `got_offer` and the address, after a step. -/
def TakesLawful (cfg : Config) (t : Track) (op : Op) : Prop := TakesOffers cfg (trackStep cfg t op)

/-- The law of the rest, after a step. -/
def ClearedLawful (cfg : Config) (t : Track) (op : Op) : Prop := Cleared (trackStep cfg t op)

/-! ## The condition -/

/-- The call refuses the offer: the server with a NAK, or the client with a decline. -/
def Refuses (cfg : Config) (c : FsmCall) (d : Client) : Prop :=
  d.state = .requesting ∧ (eventIn cfg c d = some .nak ∨
    eventIn cfg c d = some .ack ∧ dhcpArpCheck cfg c.packet = false)

instance (cfg : Config) (c : FsmCall) (d : Client) : Decidable (Refuses cfg c d) :=
  inferInstanceAs (Decidable (_ ∧ _))

/-- The call ends the lease with a NAK. -/
def Revokes (cfg : Config) (c : FsmCall) (d : Client) : Prop :=
  (d.state = .renewing ∨ d.state = .rebinding) ∧ eventIn cfg c d = some .nak

instance (cfg : Config) (c : FsmCall) (d : Client) : Decidable (Revokes cfg c d) :=
  inferInstanceAs (Decidable (_ ∧ _))

/-- `DHCP_do_boot` starts from INIT. -/
structure StartsOver (d : Client) (opened : Bool) : Prop where
  noFault : d.fault = false
  boot : d.boot = none
  cfgRead : d.cfgRead = false
  sock : d.sock = true ∨ opened = true
  state : d.state ≠ .renewing ∧ d.state ≠ .rebinding

/-- `DHCP_do_boot` does not start over with `got_offer` set, and no offer is refused and no lease
revoked with it set. -/
structure FreshOk (cfg : Config) (t : Track) (op : Op) : Prop where
  boot : ∀ e opened, op = .boot e opened → StartsOver t.d opened → t.d.gotOffer = false
  call : ∀ c, fsmCall t.d op = some c → Refuses cfg c t.d ∨ Revokes cfg c t.d → t.d.gotOffer = false

/-- An offer that is refused has set nothing beside the address, and HOST is not configured after it. -/
structure ClearOk (cfg : Config) (t : Track) (op : Op) : Prop where
  call : ∀ c, fsmCall t.d op = some c → Refuses cfg c t.d → DataClear t.d
  host : ∀ bcastFlag host, op = .config bcastFlag (some host) → t.refused = false

/-! ## The invariants -/

variable {cfg : Config} {c : FsmCall} {d d' : Client} {e : Env} {event : Event} {op : Op} {t : Track}
  {refused : Bool}

/-- The client is in INIT or SELECTING. -/
def Client.idle (d : Client) : Bool := d.state = .init ∨ d.state = .selecting

/-- What holds of the flag and the address in INIT and SELECTING. -/
structure IdleInv (d : Client) (refused : Bool) : Prop where
  gotOffer : d.idle = true → d.gotOffer = false
  address : d.idle = true → refused = true → d.myIpAddr = 0

/-- What holds of the rest after an offer has been refused. -/
structure ClearInv (d : Client) (refused : Bool) : Prop where
  idle : refused = true → d.idle = true
  clear : refused = true → DataClear d

/-- A client that is idle exactly if it was so before, with the same data. -/
structure SameIdle (d d' : Client) : Prop where
  idle : d'.idle = d.idle
  gotOffer : d'.idle = true → d'.gotOffer = d.gotOffer
  address : d'.myIpAddr = d.myIpAddr
  clear : DataClear d → DataClear d'

theorem SameIdle.trans {d'' : Client} (h : SameIdle d d') (h' : SameIdle d' d'') : SameIdle d d'' :=
  ⟨h'.idle.trans h.idle, fun hi => (h'.gotOffer hi).trans (h.gotOffer (h'.idle ▸ hi)),
    h'.address.trans h.address, fun hc => h'.clear (h.clear hc)⟩

theorem SameIdle.refl (d : Client) : SameIdle d d := ⟨rfl, fun _ => rfl, rfl, id⟩

theorem IdleInv.of_same (h : IdleInv d refused) (hs : SameIdle d d') : IdleInv d' refused where
  gotOffer hi := (hs.gotOffer hi).trans (h.gotOffer (hs.idle ▸ hi))
  address hi hr := hs.address.trans (h.address (hs.idle ▸ hi) hr)

theorem ClearInv.of_same (h : ClearInv d refused) (hs : SameIdle d d') : ClearInv d' refused where
  idle hr := hs.idle.trans (h.idle hr)
  clear hr := hs.clear (h.clear hr)

/-! ## The timers -/

/-- No timer leads to INIT or SELECTING from elsewhere, or out of the two. -/
theorem dispatch_timer_idle (h : event = .sendTimeout ∨ event = .t1Timeout ∨ event = .t2Timeout) :
    SameIdle d (dispatch cfg e d event) := by
  unfold dispatch
  cases hs : d.state <;> rcases h with rfl | rfl | rfl <;>
    refine ⟨?_, ?_, rfl, fun hc => ⟨hc.server, hc.lease, hc.renewal, hc.rebind⟩⟩ <;>
    simp [Client.idle, stateInit, stateSelecting, stateRequesting, stateBound, stateRenewing,
      stateRebinding, dhcpDiscover, dhcpRequest, dhcpSend, hs]

theorem checkSend_idle : SameIdle d (checkSend cfg c d) := by
  unfold checkSend
  split_ifs
  · have h : SameIdle { d with sendTimeout := 0 }
        (dispatch cfg c.send { d with sendTimeout := 0 } .sendTimeout) := dispatch_timer_idle (.inl rfl)
    exact ⟨h.idle, h.gotOffer, h.address, fun hc => h.clear ⟨hc.server, hc.lease, hc.renewal, hc.rebind⟩⟩
  · exact .refl d

theorem checkT1_idle : SameIdle d (checkT1 cfg c d) := by
  unfold checkT1
  split_ifs
  · have h : SameIdle { d with renewalTimeout := 0 }
        (dispatch cfg c.t1 { d with renewalTimeout := 0 } .t1Timeout) :=
      dispatch_timer_idle (.inr (.inl rfl))
    exact ⟨h.idle, h.gotOffer, h.address, fun hc => h.clear ⟨hc.server, hc.lease, hc.renewal, hc.rebind⟩⟩
  · exact .refl d

theorem checkT2_idle : SameIdle d (checkT2 cfg c d) := by
  unfold checkT2
  split_ifs
  · have h : SameIdle { d with rebindTimeout := 0 }
        (dispatch cfg c.t2 { d with rebindTimeout := 0 } .t2Timeout) :=
      dispatch_timer_idle (.inr (.inr rfl))
    exact ⟨h.idle, h.gotOffer, h.address, fun hc => h.clear ⟨hc.server, hc.lease, hc.renewal, hc.rebind⟩⟩
  · exact .refl d

theorem dhcpFsm_idle : SameIdle (receive cfg c d) (dhcpFsm cfg c d) :=
  (checkSend_idle.trans checkT1_idle).trans checkT2_idle

/-! ## The packet -/

theorem readIn_idle : SameIdle d (readIn c d) := by
  obtain ⟨m, hm⟩ := readIn_shape c d
  rw [hm]
  exact ⟨rfl, fun _ => rfl, rfl, fun hc => ⟨hc.server, hc.lease, hc.renewal, hc.rebind⟩⟩

/-- INIT and SELECTING only read a packet that is not for `DHCP_offer`. -/
theorem receive_idle (hi : d.idle = true) (ho : ¬ (d.state = .selecting ∧ Offered cfg c d)) :
    receive cfg c d = readIn c d := by
  cases hs : d.state with
  | init => exact receive_ignored (.inl hs)
  | selecting => exact receive_notOffered hs fun h => ho ⟨hs, h⟩
  | requesting | bound | renewing | rebinding => simp [Client.idle, hs] at hi

/-- An offer is taken, or the packet is none. -/
theorem receive_offered (hs : d.state = .selecting) (ho : Offered cfg c d) :
    (HasOffer (readIn c d) → (receive cfg c d).state = .requesting) ∧
      ((receive cfg c d).idle = true → (receive cfg c d).gotOffer = false) ∧
      (receive cfg c d).fault = (dhcpOffer (readIn c d)).fault := by
  obtain ⟨m, hm⟩ := readIn_shape c d
  have hstate : (readIn c d).state = d.state := by rw [hm]
  have hgot : (readIn c d).gotOffer = false := by
    rw [hm]
    exact ho.2
  have hoffer : (dhcpOffer (readIn c d)).gotOffer = true ↔ HasOffer (readIn c d) := by
    rw [dhcpOffer_gotOffer, hgot]
    simp [HasOffer]
  rw [receive_some ho.1, dispatch, hstate, hs]
  simp only [stateSelecting]
  rw [if_neg (by simp [hgot])]
  by_cases hh : (dhcpOffer (readIn c d)).gotOffer = true
  · rw [if_pos hh]
    exact ⟨fun _ => rfl, fun hi => (by cases hi), rfl⟩
  · rw [if_neg hh]
    exact ⟨fun h => absurd (hoffer.mpr h) hh, fun _ => eq_false_of_ne_true hh, rfl⟩

/-- The other states are left for INIT by a refusal or a NAK only, and with no address. -/
theorem receive_busy (hd : d.idle = false) (hi : (receive cfg c d).idle = true) :
    (Refuses cfg c d ∨ Revokes cfg c d) ∧ (receive cfg c d).gotOffer = d.gotOffer ∧
      (receive cfg c d).myIpAddr = 0 ∧ (DataClear d → DataClear (receive cfg c d)) := by
  obtain ⟨m, hm⟩ := readIn_shape c d
  have hstate : (readIn c d).state = d.state := by rw [hm]
  have hread : (readIn c d).idle = false := readIn_idle.idle.trans hd
  have hleft (e : Env) (d' : Client) (hgot : d'.gotOffer = (readIn c d).gotOffer)
      (hclear : DataClear (readIn c d) → DataClear d') : (toInit e d').gotOffer = d.gotOffer ∧
        (toInit e d').myIpAddr = 0 ∧ (DataClear d → DataClear (toInit e d')) := by
    refine ⟨hgot.trans (by rw [hm]), rfl, fun hc => ?_⟩
    have hc' := hclear (readIn_idle.clear hc)
    exact ⟨hc'.server, hc'.lease, hc'.renewal, hc'.rebind⟩
  cases hs : d.state with
  | init | selecting => simp [Client.idle, hs] at hd
  | bound =>
    rw [receive_ignored (.inr hs), hread] at hi
    cases hi
  | requesting =>
    rcases eventIn_cases cfg c d with h | h | h | h
    · rw [receive_none h, hread] at hi
      cases hi
    · rw [receive_some h, dispatch, hstate, hs] at hi ⊢
      by_cases harp : dhcpArpCheck cfg c.packet = false
      · simp only [stateRequesting]
        rw [if_pos harp]
        exact ⟨.inl ⟨hs, .inr ⟨h, harp⟩⟩, hleft _ _ rfl fun hc => ⟨hc.server, hc.lease, hc.renewal, hc.rebind⟩⟩
      · simp only [stateRequesting] at hi
        rw [if_neg harp] at hi
        cases hi
    · rw [receive_some h, dispatch, hstate, hs]
      exact ⟨.inl ⟨hs, .inl h⟩, hleft _ _ rfl id⟩
    · rw [receive_some h, dispatch, hstate, hs] at hi
      replace hi : (readIn c d).idle = true := hi
      rw [hread] at hi
      cases hi
  | renewing | rebinding =>
    rcases eventIn_cases cfg c d with h | h | h | h
    · rw [receive_none h, hread] at hi
      cases hi
    · rw [receive_some h, dispatch, hstate, hs] at hi
      cases hi
    · rw [receive_some h, dispatch, hstate, hs]
      exact ⟨.inr ⟨by simp [hs], h⟩, hleft _ _ rfl id⟩
    · rw [receive_some h, dispatch, hstate, hs] at hi
      replace hi : (readIn c d).idle = true := hi
      rw [hread] at hi
      cases hi

/-! ## Steps -/

/-- A call keeps the invariant of the flag and the address. -/
theorem receive_idleInv (h : IdleInv t.d t.refused)
    (hok : Refuses cfg c t.d ∨ Revokes cfg c t.d → t.d.gotOffer = false) :
    IdleInv (receive cfg c t.d) (refusedAfter cfg c t) := by
  cases hd : t.d.idle with
  | false =>
    constructor
    · intro hi
      obtain ⟨hleft, hgot, -⟩ := receive_busy hd hi
      exact hgot.trans (hok hleft)
    · intro hi _
      exact (receive_busy hd hi).2.2.1
  | true =>
    have hnot : ¬ (t.d.state = .requesting ∧ (receive cfg c t.d).state = .init) := by
      rintro ⟨hs, -⟩
      simp [Client.idle, hs] at hd
    rw [refusedAfter, if_neg hnot]
    by_cases ho : t.d.state = .selecting ∧ Offered cfg c t.d
    · rw [if_pos ho]
      exact ⟨(receive_offered ho.1 ho.2).2.1, fun _ hr => (by cases hr)⟩
    · rw [if_neg ho, receive_idle hd ho]
      exact h.of_same readIn_idle

/-- A call keeps the invariant of the rest. -/
theorem receive_clearInv (h : ClearInv t.d t.refused) (hok : Refuses cfg c t.d → DataClear t.d) :
    ClearInv (receive cfg c t.d) (refusedAfter cfg c t) := by
  unfold refusedAfter
  by_cases hnew : t.d.state = .requesting ∧ (receive cfg c t.d).state = .init
  · have hd : t.d.idle = false := by simp [Client.idle, hnew.1]
    have hi : (receive cfg c t.d).idle = true := by simp [Client.idle, hnew.2]
    obtain ⟨hleft, -, -, hclear⟩ := receive_busy hd hi
    have hrefuses : Refuses cfg c t.d :=
      hleft.resolve_right fun hr => by simp [Revokes, hnew.1] at hr
    rw [if_pos hnew]
    exact ⟨fun _ => hi, fun _ => hclear (hok hrefuses)⟩
  · rw [if_neg hnew]
    by_cases ho : t.d.state = .selecting ∧ Offered cfg c t.d
    · rw [if_pos ho]
      exact ⟨fun hr => (by cases hr), fun hr => (by cases hr)⟩
    · rw [if_neg ho]
      have hread (hr : t.refused = true) : ClearInv (receive cfg c t.d) t.refused := by
        rw [receive_idle (h.idle hr) ho]
        exact h.of_same readIn_idle
      exact ⟨fun hr => (hread hr).idle hr, fun hr => (hread hr).clear hr⟩

theorem bootEnd_inv {written added : Bool} (h : IdleInv d refused) :
    IdleInv (bootEnd written added d) refused := by
  simp only [bootEnd]
  split_ifs with hip
  · exact ⟨fun _ => rfl, fun hi hr => absurd (h.address hi hr) hip⟩
  · exact ⟨fun _ => rfl, fun hi hr => h.address hi hr⟩

theorem bootEnd_clearInv {written added : Bool} (h : ClearInv d refused) :
    ClearInv (bootEnd written added d) refused := by
  have hclear (hr : refused = true) := h.clear hr
  simp only [bootEnd]
  split_ifs
  all_goals exact ⟨fun hr => h.idle hr, fun hr =>
    ⟨(hclear hr).server, (hclear hr).lease, (hclear hr).renewal, (hclear hr).rebind⟩⟩

/-- A step with a call of `dhcp_fsm`. -/
theorem step_call_inv (hc : fsmCall t.d op = some c) (h : IdleInv t.d t.refused) (hok : FreshOk cfg t op) :
    IdleInv (step cfg t.d op) (refusedAfter cfg c t) := by
  have hfsm := (receive_idleInv h (hok.call c hc)).of_same dhcpFsm_idle
  rcases step_fsmCall cfg hc with hs | ⟨_, _, _, _, hs⟩
  · rw [hs]
    exact hfsm
  · rw [hs]
    simp only [bootTurn]
    split_ifs
    · exact ⟨hfsm.gotOffer, hfsm.address⟩
    · exact bootEnd_inv hfsm

theorem step_call_clearInv (hc : fsmCall t.d op = some c) (h : ClearInv t.d t.refused)
    (hok : ClearOk cfg t op) : ClearInv (step cfg t.d op) (refusedAfter cfg c t) := by
  have hfsm := (receive_clearInv h (hok.call c hc)).of_same dhcpFsm_idle
  rcases step_fsmCall cfg hc with hs | ⟨_, _, _, _, hs⟩
  · rw [hs]
    exact hfsm
  · rw [hs]
    simp only [bootTurn]
    split_ifs
    · exact ⟨hfsm.idle, fun hr =>
        ⟨(hfsm.clear hr).server, (hfsm.clear hr).lease, (hfsm.clear hr).renewal, (hfsm.clear hr).rebind⟩⟩
    · exact bootEnd_clearInv hfsm

theorem bootStart_inv {opened : Bool} (hf : d.fault = false) (hb : d.boot = none)
    (h : IdleInv d refused) (hok : StartsOver d opened → d.gotOffer = false) :
    IdleInv (bootStart cfg e opened d) refused := by
  unfold bootStart
  split_ifs with hread hsock
  · exact h
  · exact h
  · by_cases hr : d.state = .renewing ∨ d.state = .rebinding
    · constructor <;> rcases hr with hr | hr <;> simp [Client.idle, hr]
    · have hr' := not_or.mp hr
      have hgot : d.gotOffer = false := hok
        { noFault := hf
          boot := hb
          cfgRead := eq_false_of_ne_true hread
          sock := by
            by_contra hno
            exact hsock (by simpa using hno)
          state := hr' }
      exact ⟨fun _ => hgot, fun _ _ => by simp [hr']⟩

theorem bootStart_clearInv {opened : Bool} (h : ClearInv d refused) :
    ClearInv (bootStart cfg e opened d) refused := by
  unfold bootStart
  split_ifs
  · exact h
  · exact h
  · refine ⟨fun hr => ?_, fun hr =>
      ⟨(h.clear hr).server, (h.clear hr).lease, (h.clear hr).renewal, (h.clear hr).rebind⟩⟩
    have hi := h.idle hr
    by_cases hs : d.state = .renewing ∨ d.state = .rebinding
    · rcases hs with hs | hs <;> simp [Client.idle, hs] at hi
    · simp [Client.idle, hs]

theorem release_inv {force : Bool} (h : IdleInv d refused) : IdleInv (release e force d) refused := by
  simp only [release]
  split_ifs <;> exact ⟨h.gotOffer, h.address⟩

theorem release_clearInv {force : Bool} (h : ClearInv d refused) :
    ClearInv (release e force d) refused := by
  simp only [release]
  split_ifs <;> exact ⟨h.idle, fun hr =>
    ⟨(h.clear hr).server, (h.clear hr).lease, (h.clear hr).renewal, (h.clear hr).rebind⟩⟩

/-- `eval_timers` leads to none of the two states. -/
theorem evalTimers_idle {file : Transient} (hi : (evalTimers cfg e file d).1.idle = true) :
    d.idle = true ∧ (evalTimers cfg e file d).1.gotOffer = d.gotOffer := by
  simp only [evalTimers] at hi ⊢
  by_cases h₁ : e.time < file.renewal
  · rw [if_pos h₁] at hi
    cases hi
  · rw [if_neg h₁] at hi ⊢
    by_cases h₂ : e.time < file.rebind
    · rw [if_pos h₂] at hi
      cases hi
    · rw [if_neg h₂] at hi ⊢
      by_cases h₃ : e.time < file.iplease
      · rw [if_pos h₃] at hi
        cases hi
      · rw [if_neg h₃] at hi ⊢
        exact ⟨hi, rfl⟩

theorem readConfig_inv {file : Transient} {opened : Bool} (h : IdleInv d refused) :
    IdleInv (readConfig cfg e (some file) opened d) false := by
  refine ⟨fun hi => ?_, fun _ hr => by cases hr⟩
  simp only [readConfig] at hi ⊢
  by_cases ho : opened = false
  · rw [if_pos ho] at hi ⊢
    exact h.gotOffer hi
  · rw [if_neg ho] at hi ⊢
    split_ifs at hi ⊢
    all_goals
      obtain ⟨hi', hgot⟩ := evalTimers_idle hi
      exact hgot.trans (h.gotOffer hi')

/-- What a step without a call of `dhcp_fsm` does. -/
theorem trackStep_quiet (cfg : Config) (offered refused : Bool) (hc : fsmCall d op = none) :
    trackStep cfg ⟨d, offered, refused⟩ op = ⟨d, offered, refused⟩ ∨ d.fault = false ∧ d.boot = none ∧
      ((∃ bcastFlag host, op = .config bcastFlag host ∧ trackStep cfg ⟨d, offered, refused⟩ op =
          ⟨{ d with bcastFlag := bcastFlag, dhcpServer := host.getD d.dhcpServer }, offered, refused⟩) ∨
        (∃ e opened, op = .readConfig e none opened ∧ trackStep cfg ⟨d, offered, refused⟩ op =
          ⟨readConfig cfg e none opened d, offered, refused⟩) ∨
        (∃ e file opened, op = .readConfig e (some file) opened ∧
          trackStep cfg ⟨d, offered, refused⟩ op =
            ⟨readConfig cfg e (some file) opened d, offered, false⟩) ∨
        (∃ e opened, op = .boot e opened ∧ trackStep cfg ⟨d, offered, refused⟩ op =
          ⟨bootStart cfg e opened d, offered, refused⟩) ∨
        ∃ e force, op = .release e force ∧ trackStep cfg ⟨d, offered, refused⟩ op =
          ⟨release e force d, offered, refused⟩) := by
  by_cases hf : d.fault = true
  · left
    have hstep : step cfg d op = d := if_pos hf
    simp only [trackStep, hc, hstep, hf, Bool.true_or, Bool.and_true]
    rcases op with _ | ⟨_, _ | _, _⟩ | _ | _ | _ | _ <;> rfl
  · have hf' : d.fault = false := eq_false_of_ne_true hf
    simp only [trackStep, hc]
    unfold step fsmCall at *
    rw [if_neg hf] at hc ⊢
    rcases hb : d.boot with _ | b <;> rw [hb] at hc
    · rcases op with _ | ⟨_, _ | _, _⟩ | _ | _ | _ | _
      · exact .inr ⟨hf', rfl, .inl ⟨_, _, rfl, rfl⟩⟩
      · exact .inr ⟨hf', rfl, .inr (.inl ⟨_, _, rfl, rfl⟩)⟩
      · refine .inr ⟨hf', rfl, .inr (.inr (.inl ⟨_, _, _, rfl, ?_⟩))⟩
        simp only [hf', Bool.false_or, Option.isSome_none, Bool.and_false]
      · exact .inr ⟨hf', rfl, .inr (.inr (.inr (.inl ⟨_, _, rfl, rfl⟩)))⟩
      · exact .inl rfl
      · left
        by_cases hd : d.daemon = true
        · simp only [if_pos hd] at hc
          cases hc
        · simp only [if_neg hd]
      · exact .inr ⟨hf', rfl, .inr (.inr (.inr (.inr ⟨_, _, rfl, rfl⟩)))⟩
    · left
      rcases op with _ | ⟨_, _ | _, _⟩ | _ | _ | _ | _
      case turn => cases hc
      case daemon =>
        by_cases hd : d.daemon = true
        · simp only [if_pos hd] at hc
          cases hc
        · simp only [if_neg hd]
      case readConfig.some => simp only [Option.isSome_some, Bool.or_true, Bool.and_true]
      all_goals rfl

/-- **Every step that meets the condition keeps the invariant of the flag and the address.** -/
theorem trackStep_inv (h : IdleInv t.d t.refused) (hok : FreshOk cfg t op) :
    IdleInv (trackStep cfg t op).d (trackStep cfg t op).refused := by
  obtain ⟨d, offered, refused⟩ := t
  cases hc : fsmCall d op with
  | some c =>
    simp only [trackStep, hc]
    exact step_call_inv hc h hok
  | none =>
    rcases trackStep_quiet cfg offered refused hc with
      hs | ⟨hf, hb, hs⟩
    · rw [hs]
      exact h
    rcases hs with ⟨_, _, -, hs⟩ | ⟨_, _, -, hs⟩ | ⟨_, _, _, -, hs⟩ | ⟨_, _, hop, hs⟩ | ⟨_, _, -, hs⟩ <;>
      rw [hs]
    · exact ⟨h.gotOffer, h.address⟩
    · exact ⟨h.gotOffer, h.address⟩
    · exact readConfig_inv h
    · exact bootStart_inv hf hb h (hok.boot _ _ hop)
    · exact release_inv h

/-- **Every step that meets the condition keeps the invariant of the rest.** -/
theorem trackStep_clearInv (h : ClearInv t.d t.refused) (hok : ClearOk cfg t op) :
    ClearInv (trackStep cfg t op).d (trackStep cfg t op).refused := by
  obtain ⟨d, offered, refused⟩ := t
  have hclear (hr : refused = true) := h.clear hr
  cases hc : fsmCall d op with
  | some c =>
    simp only [trackStep, hc]
    exact step_call_clearInv hc h hok
  | none =>
    rcases trackStep_quiet cfg offered refused hc with
      hs | ⟨-, -, hs⟩
    · rw [hs]
      exact h
    rcases hs with ⟨_, host, hop, hs⟩ | ⟨_, _, -, hs⟩ | ⟨_, _, _, -, hs⟩ | ⟨_, _, -, hs⟩ | ⟨_, _, -, hs⟩ <;>
      rw [hs]
    · cases host with
      | none =>
        exact ⟨h.idle, fun hr =>
          ⟨(hclear hr).server, (hclear hr).lease, (hclear hr).renewal, (hclear hr).rebind⟩⟩
      | some host =>
        have hr : refused = false := hok.host _ _ hop
        exact ⟨fun h' => absurd h' (by simp [hr]), fun h' => absurd h' (by simp [hr])⟩
    · exact ⟨h.idle, fun hr =>
        ⟨(hclear hr).server, (hclear hr).lease, (hclear hr).renewal, (hclear hr).rebind⟩⟩
    · exact ⟨fun hr => (by cases hr), fun hr => (by cases hr)⟩
    · exact bootStart_clearInv h
    · exact release_clearInv h

/-- With `got_offer` FALSE the next offer is taken. -/
theorem takesOffers_of_inv (h : IdleInv t.d t.refused) : TakesOffers cfg t := by
  have hidle (hs : t.d.state = .selecting) : t.d.idle = true := by simp [Client.idle, hs]
  refine ⟨fun hs _ => h.gotOffer (hidle hs), fun hs _ hr => h.address (hidle hs) hr,
    fun hs _ c hvalid => ?_⟩
  obtain ⟨m, hm⟩ := readIn_shape c t.d
  obtain ⟨htaken, -, hfault⟩ := receive_offered hs ⟨hvalid.event, h.gotOffer (hidle hs)⟩
  refine ⟨htaken hvalid.offer, ?_⟩
  rw [hfault, dhcpOffer_fault_eq hvalid.noOverload, hm]

/-- **A fresh offer can be taken** in every run from the start whose steps meet the condition; and where
a refused offer has set nothing else, nothing of it is left. -/
theorem fresh_offers (cfg : Config) (ops : List Op)
    (hok : Always (trackStep cfg) (FreshOk cfg) {} ops) :
    Always (trackStep cfg) (TakesLawful cfg) {} ops ∧
      (Always (trackStep cfg) (ClearOk cfg) {} ops →
        Always (trackStep cfg) (ClearedLawful cfg) {} ops) := by
  constructor
  · refine always_of_invariant (I := fun t => IdleInv t.d t.refused) (fun t op h hq => ?_) ops
      ⟨fun _ => rfl, fun _ hr => (by cases hr)⟩ hok
    have h' := trackStep_inv h hq
    exact ⟨h', takesOffers_of_inv h'⟩
  · refine always_of_invariant (I := fun t => ClearInv t.d t.refused) (fun t op h hq => ?_) ops
      ⟨fun hr => (by cases hr), fun hr => (by cases hr)⟩
    have h' := trackStep_clearInv h hq
    exact ⟨h', fun _ _ hr => h'.clear hr⟩

/-! ## A run -/

/-- A NAK. -/
def nak : List Byte := reply 1 (option1 53 6 ++ option4 54 9 ++ [255])

/-- The boot up to REQUESTING, a NAK, and the next discovery. -/
def nakOps : List Op :=
  [.boot {} true, .turn {} 1 true true,
    .turn (reads 100 (reply 1 (option1 53 2 ++ option4 54 9 ++ option4 51 80 ++ [255]))) 1 true true,
    .turn (reads 100 nak) 1 true true, .turn { send := { msec := 9000 } } 1 true true]

/-- After a NAK the client discovers with `got_offer` set. -/
theorem offers_ignored : ¬ Always (trackStep ourConfig) (TakesLawful ourConfig) {} nakOps := by
  rintro ⟨-, -, -, -, h, -⟩
  exact absurd (h.gotOffer (by decide +kernel) (by decide +kernel)) (by decide +kernel)

theorem freshOk_turn {now : Dword} {written added : Bool}
    (h : Refuses cfg c t.d ∨ Revokes cfg c t.d → t.d.gotOffer = false) :
    FreshOk cfg t (.turn c now written added) := by
  refine ⟨fun _ _ hop => (by cases hop), fun c' hc => ?_⟩
  rcases fsmCall_eq hc with hop | ⟨_, _, _, hop⟩ <;> cases hop
  exact h

theorem freshOk_daemon (h : Refuses cfg c t.d ∨ Revokes cfg c t.d → t.d.gotOffer = false) :
    FreshOk cfg t (.daemon c) := by
  refine ⟨fun _ _ hop => (by cases hop), fun c' hc => ?_⟩
  rcases fsmCall_eq hc with hop | ⟨_, _, _, hop⟩ <;> cases hop
  exact h

theorem clearOk_turn {now : Dword} {written added : Bool} (h : ¬ Refuses cfg c t.d) :
    ClearOk cfg t (.turn c now written added) := by
  refine ⟨fun c' hc => ?_, fun _ _ hop => (by cases hop)⟩
  rcases fsmCall_eq hc with hop | ⟨_, _, _, hop⟩ <;> cases hop
  exact fun h' => absurd h' h

theorem clearOk_daemon (h : ¬ Refuses cfg c t.d) : ClearOk cfg t (.daemon c) := by
  refine ⟨fun c' hc => ?_, fun _ _ hop => (by cases hop)⟩
  rcases fsmCall_eq hc with hop | ⟨_, _, _, hop⟩ <;> cases hop
  exact fun h' => absurd h' h

/-- A lease that is revoked with a NAK when it is renewed, and the next discovery. -/
def revokeOps : List Op :=
  bootOps ++ [.daemon { t1 := { time := 140 } }, .daemon (reads 141 nak),
    .daemon { send := { msec := 9000 } }]

/-- The client is ready for an offer then. -/
theorem revoked_fresh : Always (trackStep ourConfig) (TakesLawful ourConfig) {} revokeOps ∧
    Always (trackStep ourConfig) (ClearedLawful ourConfig) {} revokeOps := by
  have h := fresh_offers ourConfig revokeOps ⟨⟨fun _ _ _ _ => rfl, fun c hc => (by cases hc)⟩,
    freshOk_turn (by decide +kernel), freshOk_turn (by decide +kernel), freshOk_turn (by decide +kernel),
    freshOk_daemon (by decide +kernel), freshOk_daemon (by decide +kernel),
    freshOk_daemon (by decide +kernel), trivial⟩
  exact ⟨h.1, h.2 ⟨⟨fun c hc => (by cases hc), fun _ _ hop => (by cases hop)⟩,
    clearOk_turn (by decide +kernel), clearOk_turn (by decide +kernel), clearOk_turn (by decide +kernel),
    clearOk_daemon (by decide +kernel), clearOk_daemon (by decide +kernel),
    clearOk_daemon (by decide +kernel), trivial⟩⟩

end Watt32.Dhcp
