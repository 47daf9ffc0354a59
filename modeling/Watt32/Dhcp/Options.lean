import Watt32.Lib.Tlv
import Watt32.Dhcp.Client

/-!
# The options of a DHCP packet

What `DHCP_offer` reads from `dhcp_in`, and what of it the packet itself says.

* `Client.options`: the places of the options in `dhcp_in`.
* `dhcpOffer_shape`, `dhcpOffer_iplease`, …: what `DHCP_offer` leaves.
* `ackOption`: the value of an option that lies in a packet.
* **`last_eq_ackOption`**: when `DHCP_offer` reads just that.
-/

namespace Watt32.Dhcp

/-- The places of the options in a memory. -/
def optionsOf (m : ℕ → Byte) : List ℕ := Tlv.walk m optPad optEnd sizeofDhcp sizeofDhcp dhOpt

/-- The places of the options in `dhcp_in`. -/
def Client.options (d : Client) : List ℕ := optionsOf d.dhcpIn

variable {d : Client} {m m' : ℕ → Byte}

theorem offerLoop_eq : ∀ (n opt : ℕ) (d : Client),
    offerLoop m n opt d = (Tlv.walk m optPad optEnd sizeofDhcp n opt).foldl (dhcpOption m) d
  | 0, _, _ => rfl
  | n + 1, opt, d => by
    rw [offerLoop, Tlv.walk]
    split_ifs
    · rfl
    · exact offerLoop_eq n _ d
    · rfl
    · exact offerLoop_eq n _ _

theorem dhcpOffer_eq (d : Client) : dhcpOffer d = d.options.foldl (dhcpOption d.dhcpIn) d :=
  offerLoop_eq _ _ d

/-- `DHCP_offer` writes six globals at most. -/
theorem foldl_shape (ps : List ℕ) (d : Client) : ∃ got server iplease renewal rebind fault,
    ps.foldl (dhcpOption m) d = { d with
      gotOffer := got, dhcpServer := server, dhcpIplease := iplease, dhcpRenewal := renewal
      dhcpRebind := rebind, fault := fault } := by
  induction ps generalizing d with
  | nil => exact ⟨_, _, _, _, _, _, rfl⟩
  | cons i ps ih =>
    obtain ⟨_, _, _, _, _, _, h⟩ := ih (dhcpOption m d i)
    rw [List.foldl_cons, h]
    unfold dhcpOption
    split_ifs <;> exact ⟨_, _, _, _, _, _, rfl⟩

theorem dhcpOffer_shape (d : Client) : ∃ got server iplease renewal rebind fault,
    dhcpOffer d = { d with
      gotOffer := got, dhcpServer := server, dhcpIplease := iplease, dhcpRenewal := renewal
      dhcpRebind := rebind, fault := fault } := by
  rw [dhcpOffer_eq]
  exact foldl_shape _ d

@[simp] theorem dhcpOffer_state : (dhcpOffer d).state = d.state := by
  obtain ⟨_, _, _, _, _, _, h⟩ := dhcpOffer_shape d
  rw [h]

@[simp] theorem dhcpOffer_myIpAddr : (dhcpOffer d).myIpAddr = d.myIpAddr := by
  obtain ⟨_, _, _, _, _, _, h⟩ := dhcpOffer_shape d
  rw [h]

@[simp] theorem dhcpOffer_dhcpIn : (dhcpOffer d).dhcpIn = d.dhcpIn := by
  obtain ⟨_, _, _, _, _, _, h⟩ := dhcpOffer_shape d
  rw [h]

@[simp] theorem dhcpOffer_timeouts : (dhcpOffer d).timeouts = d.timeouts := by
  obtain ⟨_, _, _, _, _, _, h⟩ := dhcpOffer_shape d
  rw [h]
  rfl

/-- The value of the last option with a code. -/
def optionValue (m : ℕ → Byte) (ps : List ℕ) (code : Byte) : Option Dword :=
  Tlv.last ps (fun i => m i = code) fun i => intel m (i + 2)

theorem dhcpOffer_iplease :
    (dhcpOffer d).dhcpIplease = (optionValue d.dhcpIn d.options optIpAddrLeaseTime).getD d.dhcpIplease := by
  rw [dhcpOffer_eq]
  refine Tlv.foldl_field (f := Client.dhcpIplease) (fun s i => ?_) _ d
  unfold dhcpOption
  split_ifs <;> simp_all [optMsgType, optSrvIdentifier, optIpAddrLeaseTime]

theorem dhcpOffer_renewal :
    (dhcpOffer d).dhcpRenewal = (optionValue d.dhcpIn d.options optT1Value).getD d.dhcpRenewal := by
  rw [dhcpOffer_eq]
  refine Tlv.foldl_field (f := Client.dhcpRenewal) (fun s i => ?_) _ d
  unfold dhcpOption
  split_ifs <;> simp_all [optMsgType, optSrvIdentifier, optIpAddrLeaseTime, optT1Value]

theorem dhcpOffer_rebind :
    (dhcpOffer d).dhcpRebind = (optionValue d.dhcpIn d.options optT2Value).getD d.dhcpRebind := by
  rw [dhcpOffer_eq]
  refine Tlv.foldl_field (f := Client.dhcpRebind) (fun s i => ?_) _ d
  unfold dhcpOption
  split_ifs <;> simp_all [optMsgType, optSrvIdentifier, optIpAddrLeaseTime, optT1Value, optT2Value]

/-- A field that options can only set. -/
theorem getD_last_eq_true {ps : List ℕ} {p : ℕ → Bool} {b : Bool} :
    (Tlv.last ps p fun _ => true).getD b = true ↔ b = true ∨ ∃ i ∈ ps, p i = true := by
  cases h : Tlv.last ps p fun _ => true with
  | none =>
    rw [Tlv.last_eq_none_iff] at h
    rw [Option.getD_none]
    refine ⟨.inl, fun h' => h'.elim id ?_⟩
    rintro ⟨i, hi, hp⟩
    rw [h i hi] at hp
    cases hp
  | some v =>
    obtain ⟨i, hi, rfl⟩ := Option.map_eq_some_iff.mp h
    have hi := List.mem_filter.mp (List.mem_of_getLast? hi)
    exact iff_of_true rfl (.inr ⟨i, hi⟩)

/-- `DHCP_OPT_MSG_TYPE` of an offer. -/
def isOffer (m : ℕ → Byte) (opt : ℕ) : Bool := m opt = optMsgType ∧ m (opt + 2) = msgOffer

theorem dhcpOffer_gotOffer :
    (dhcpOffer d).gotOffer = true ↔ d.gotOffer = true ∨ ∃ i ∈ d.options, isOffer d.dhcpIn i = true := by
  rw [dhcpOffer_eq, ← getD_last_eq_true]
  refine Eq.congr_left (Tlv.foldl_field (f := Client.gotOffer) (fun s i => ?_) _ d)
  unfold dhcpOption isOffer
  split_ifs <;> simp_all

theorem dhcpOffer_fault :
    (dhcpOffer d).fault = true ↔ d.fault = true ∨ ∃ i ∈ d.options, overloads d.dhcpIn i = true := by
  rw [dhcpOffer_eq, ← getD_last_eq_true]
  refine Eq.congr_left (Tlv.foldl_field (f := Client.fault) (fun s i => ?_) _ d)
  unfold dhcpOption
  split_ifs <;> simp_all [overloads, optMsgType, optSrvIdentifier, optIpAddrLeaseTime, optT1Value,
    optT2Value, optOverload]

/-- `DHCP_offer` meets no `DHCP_OPT_OVERLOAD`. -/
def NoOverload (m : ℕ → Byte) : Prop := ∀ i ∈ optionsOf m, overloads m i = false

instance (m : ℕ → Byte) : Decidable (NoOverload m) :=
  inferInstanceAs (Decidable (∀ i ∈ optionsOf m, overloads m i = false))

theorem dhcpOffer_fault_iff (hf : d.fault = false) :
    (dhcpOffer d).fault = false ↔ NoOverload d.dhcpIn := by
  rw [← Bool.not_eq_true, dhcpOffer_fault, hf]
  simp [NoOverload, Client.options]

theorem dhcpOffer_fault_eq (h : NoOverload d.dhcpIn) : (dhcpOffer d).fault = d.fault := by
  rw [Bool.eq_iff_iff, dhcpOffer_fault]
  exact or_iff_left fun ⟨i, hi, ho⟩ => by simp [h i hi] at ho

/-! ## The options of the packet -/

/-- A packet, with nothing but ends of options behind it. -/
def packetMem (data : List Byte) : ℕ → Byte := Mem.put (fun _ => optEnd) 0 data

/-- An option of four bytes at this place lies in the packet. -/
def lies (data : List Byte) (opt : ℕ) : Bool := opt + 6 ≤ data.length

/-- The value of an option that lies in the packet. -/
def ackOption (data : List Byte) (code : Byte) : Option Dword :=
  optionValue (packetMem data) ((optionsOf (packetMem data)).filter (lies data)) code

/-- If the options with a code all lie in the packet, its own value is read. -/
theorem last_eq_ackOption {data : List Byte} (m : ℕ → Byte) {code : Byte}
    (h : ∀ i ∈ optionsOf (Mem.put m 0 data), Mem.put m 0 data i = code → lies data i = true) :
    optionValue (Mem.put m 0 data) (optionsOf (Mem.put m 0 data)) code = ackOption data code := by
  have hput (i : ℕ) (hi : i < data.length) : Mem.put m 0 data i = packetMem data i := by
    have h₁ := Mem.put_of_mem (m := m) (d := 0) hi
    have h₂ := Mem.put_of_mem (m := fun _ => optEnd) (d := 0) hi
    rw [Nat.zero_add] at h₁ h₂
    exact h₁.trans h₂.symm
  have hwalk : (optionsOf (Mem.put m 0 data)).filter (lies data) =
      (optionsOf (packetMem data)).filter (lies data) :=
    Tlv.filter_walk_congr (by decide) hput sizeofDhcp dhOpt
  unfold ackOption optionValue
  rw [← hwalk, ← Tlv.last_filter (q := lies data) (by simpa using h)]
  refine Tlv.last_congr (fun i hi => ?_) fun i hi _ => ?_
  · have hi := (List.mem_filter.mp hi).2
    simp only [lies, decide_eq_true_eq] at hi
    rw [hput i (by omega)]
  · have hi := (List.mem_filter.mp hi).2
    simp only [lies, decide_eq_true_eq] at hi
    simp only [intel, hput (i + 2) (by omega), hput (i + 2 + 1) (by omega), hput (i + 2 + 2) (by omega),
      hput (i + 2 + 3) (by omega)]

end Watt32.Dhcp
