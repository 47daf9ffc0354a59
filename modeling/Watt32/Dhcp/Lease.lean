import Watt32.Dhcp.Options

/-!
# The timers of a lease

`DHCP_state_REQUESTING` reads the options of an ACK and then sets the timers; `DHCP_state_RENEWING` and
`DHCP_state_REBINDING` do it the other way round.

* `ackTimeouts`: the timers of a lease as the ACK has it.
* `LeaseLaw`: an ACK that leads to BOUND arms these.
* `AckOk`: the ACKs that do.
* **`lease_lawful`**: the law holds along every run of such ACKs.
-/

namespace Watt32.Dhcp

open Machine

/-! ## The law -/

/-- `dhcp_iplease` as the ACK has it. -/
def ackLease (data : List Byte) : Dword := (ackOption data optIpAddrLeaseTime).getD 0

/-- T1 as the ACK has it, or the default of its lease. -/
def ackRenewal (data : List Byte) : Dword := (ackOption data optT1Value).getD (ackLease data / 2)

/-- T2 as the ACK has it, or the default of its lease. -/
def ackRebind (data : List Byte) : Dword := (ackOption data optT2Value).getD (ackLease data * 7 / 8)

/-- The timers of the lease of an ACK. -/
def ackTimeouts (now : Dword) (data : List Byte) : Timeouts :=
  timeouts now (ackLease data) (ackRenewal data) (ackRebind data)

/-- What the claim has of an ACK: the client is not corrupted, and if it enters BOUND, the timers are
those of the ACK. -/
structure LeaseLaw (cfg : Config) (d : Client) (c : FsmCall) (data : List Byte) : Prop where
  noFault : (receive cfg c d).fault = false
  armed : d.state ≠ .bound → (receive cfg c d).state = .bound →
    (receive cfg c d).timeouts = ackTimeouts c.packet.time (data.take sizeofDhcp)

/-- An ACK for `dhcp_fsm` in a step. -/
structure AckIn (cfg : Config) (d : Client) (op : Op) (c : FsmCall) (data : List Byte) : Prop where
  call : fsmCall d op = some c
  read : c.data = some data
  ack : packetIn cfg c d data = some .ack

/-- The law at one step. -/
def LeaseLawful (cfg : Config) (d : Client) (op : Op) : Prop :=
  ∀ c data, AckIn cfg d op c data → LeaseLaw cfg d c data

/-! ## The condition -/

/-- The lease and timer options that `DHCP_offer` meets lie in the packet, not in what an earlier one
has left behind it. -/
def NoneLeft (m : ℕ → Byte) (data : List Byte) : Prop :=
  ∀ i ∈ optionsOf m, m i = optIpAddrLeaseTime ∨ m i = optT1Value ∨ m i = optT2Value →
    lies data i = true

instance (m : ℕ → Byte) (data : List Byte) : Decidable (NoneLeft m data) :=
  inferInstanceAs (Decidable (∀ i ∈ optionsOf m, m i = optIpAddrLeaseTime ∨ m i = optT1Value ∨
    m i = optT2Value → lies data i = true))

/-- The ACK gives the lease and both timers, or the client remembers the same. -/
structure Given (d : Client) (data : List Byte) : Prop where
  lease : ackOption data optIpAddrLeaseTime = none → d.dhcpIplease = 0
  renewal : ackOption data optT1Value = none → d.dhcpRenewal = ackLease data / 2
  rebind : ackOption data optT2Value = none → d.dhcpRebind = ackLease data * 7 / 8

/-- The client remembers the lease and the timers that the ACK gives. -/
structure Remembered (d : Client) (data : List Byte) : Prop where
  lease : d.dhcpIplease = ackLease data
  renewal : d.dhcpRenewal = ackRenewal data
  rebind : d.dhcpRebind = ackRebind data

/-- The ACKs that obey the law. -/
structure AckOk (cfg : Config) (d : Client) (c : FsmCall) (data : List Byte) : Prop where
  requesting : d.state = .requesting → dhcpArpCheck cfg c.packet = true →
    NoOverload (readPacket c d data).dhcpIn ∧
      NoneLeft (readPacket c d data).dhcpIn (data.take sizeofDhcp) ∧ Given d (data.take sizeofDhcp)
  renewing : d.state = .renewing ∨ d.state = .rebinding →
    NoOverload (readPacket c d data).dhcpIn ∧ Remembered d (data.take sizeofDhcp)

/-- The condition at one step. -/
def AcksOk (cfg : Config) (d : Client) (op : Op) : Prop :=
  ∀ c data, AckIn cfg d op c data → AckOk cfg d c data

/-! ## The proof -/

variable {cfg : Config} {c : FsmCall} {d : Client} {data : List Byte} {e : Env}

/-- In RENEWING and REBINDING the timers are those that the client remembers. -/
theorem renewed_timeouts : (renewed e d).timeouts =
    timeouts e.time d.dhcpIplease d.dhcpRenewal d.dhcpRebind :=
  dhcpOffer_timeouts (d := dhcpSetTimers e d)

/-- In REQUESTING they are those that `DHCP_offer` leaves. -/
theorem requesting_ack (harp : dhcpArpCheck cfg e = true) :
    (stateRequesting cfg e d .ack).timeouts =
        timeouts e.time (dhcpOffer d).dhcpIplease (dhcpOffer d).dhcpRenewal (dhcpOffer d).dhcpRebind ∧
      (stateRequesting cfg e d .ack).fault = (dhcpOffer d).fault := by
  simp only [stateRequesting]
  rw [if_neg (by simp [harp])]
  exact ⟨rfl, rfl⟩

/-- The lease of an ACK that `DHCP_offer` reads with nothing left behind it. -/
theorem dhcpOffer_given (hleft : NoneLeft (readPacket c d data).dhcpIn (data.take sizeofDhcp))
    (h : Given d (data.take sizeofDhcp)) :
    Remembered (dhcpOffer (readPacket c d data)) (data.take sizeofDhcp) := by
  have hvalue (code : Byte)
      (hcode : code = optIpAddrLeaseTime ∨ code = optT1Value ∨ code = optT2Value) :
      optionValue (readPacket c d data).dhcpIn (readPacket c d data).options code =
        ackOption (data.take sizeofDhcp) code :=
    last_eq_ackOption _ fun i hi hm => hleft i hi (by rw [← hm] at hcode; exact hcode)
  constructor
  · rw [dhcpOffer_iplease, hvalue _ (.inl rfl), ackLease]
    cases ho : ackOption (data.take sizeofDhcp) optIpAddrLeaseTime with
    | none => exact h.lease ho
    | some v => rfl
  · rw [dhcpOffer_renewal, hvalue _ (.inr (.inl rfl)), ackRenewal]
    cases ho : ackOption (data.take sizeofDhcp) optT1Value with
    | none => exact h.renewal ho
    | some v => rfl
  · rw [dhcpOffer_rebind, hvalue _ (.inr (.inr rfl)), ackRebind]
    cases ho : ackOption (data.take sizeofDhcp) optT2Value with
    | none => exact h.rebind ho
    | some v => rfl

theorem Remembered.timeouts (h : Remembered d data) (now : Dword) :
    Dhcp.timeouts now d.dhcpIplease d.dhcpRenewal d.dhcpRebind = ackTimeouts now data := by
  rw [ackTimeouts, h.lease, h.renewal, h.rebind]

/-- **An ACK that meets the condition obeys the law.** -/
theorem leaseLaw_of_ok (hf : d.fault = false) (hdata : c.data = some data)
    (hin : packetIn cfg c d data = some .ack) (hok : AckOk cfg d c data) : LeaseLaw cfg d c data := by
  have hrec := receive_packet hdata hin
  rw [dispatch, show (readPacket c d data).state = d.state from rfl] at hrec
  cases hs : d.state with
  | init | selecting =>
    rw [hs] at hrec
    replace hrec : receive cfg c d = readPacket c d data := hrec
    refine ⟨by rw [hrec]; exact hf, fun _ hb => ?_⟩
    rw [hrec, show (readPacket c d data).state = d.state from rfl, hs] at hb
    cases hb
  | bound =>
    rw [hs] at hrec
    replace hrec : receive cfg c d = readPacket c d data := hrec
    exact ⟨by rw [hrec]; exact hf, fun h => absurd hs h⟩
  | requesting =>
    rw [hs] at hrec
    replace hrec : receive cfg c d = stateRequesting cfg c.packet (readPacket c d data) .ack := hrec
    by_cases harp : dhcpArpCheck cfg c.packet = true
    · obtain ⟨hover, hleft, hgiven⟩ := hok.requesting hs harp
      obtain ⟨htimeouts, hfault⟩ := requesting_ack (d := readPacket c d data) harp
      refine ⟨?_, fun _ _ => ?_⟩
      · rw [hrec, hfault]
        exact (dhcpOffer_fault_iff (d := readPacket c d data) hf).mpr hover
      · rw [hrec, htimeouts]
        exact (dhcpOffer_given hleft hgiven).timeouts _
    · have hdecline : stateRequesting cfg c.packet (readPacket c d data) .ack =
          toInit c.packet (dhcpReleaseDecline c.packet .decline
            { readPacket c d data with myIpAddr := 0 }) := if_pos (eq_false_of_ne_true harp)
      refine ⟨by rw [hrec, hdecline]; exact hf, fun _ hb => ?_⟩
      rw [hrec, hdecline] at hb
      cases hb
  | renewing | rebinding =>
    obtain ⟨hover, hrem⟩ := hok.renewing (by simp [hs])
    rw [hs] at hrec
    replace hrec : receive cfg c d = renewed c.packet (readPacket c d data) := hrec
    refine ⟨?_, fun _ _ => ?_⟩
    · rw [hrec]
      exact (dhcpOffer_fault_iff (d := dhcpSetTimers c.packet (readPacket c d data)) hf).mpr hover
    · rw [hrec, renewed_timeouts]
      exact hrem.timeouts _

/-- **The lease is applied as acknowledged** in every run, from any state of the client, of ACKs that
meet the condition. -/
theorem lease_lawful (cfg : Config) (d : Client) (ops : List Op)
    (hok : Always (step cfg) (AcksOk cfg) d ops) : Always (step cfg) (LeaseLawful cfg) d ops :=
  Always.mono (fun _ _ h c data hack =>
    leaseLaw_of_ok (fsmCall_noFault hack.call) hack.read hack.ack (h c data hack)) ops hok

/-! ## A run -/

/-- A packet for us, 10.0.0.2, with the options. -/
def reply (xid : Byte) (options : List Byte) : List Byte :=
  [2, 1, 6, 0, xid, 0, 0, 0] ++ List.replicate 8 0 ++ [10, 0, 0, 2] ++ List.replicate 8 0 ++
    [2, 0, 0, 0, 0, 1] ++ List.replicate 206 0 ++ options ++ List.replicate 40 0

/-- Our configuration. -/
def ourConfig : Config := { ethAddr := [2, 0, 0, 0, 0, 1] }

/-- An option of one byte, and one of four. -/
def option1 (code v : Byte) : List Byte := [code, 1, v]
def option4 (code v : Byte) : List Byte := [code, 4, 0, 0, 0, v]

/-- An ACK for a lease. -/
def ack (lease : Byte) : List Byte := reply 1 (option1 53 5 ++ option4 54 9 ++ option4 51 lease ++ [255])

/-- A call of `dhcp_fsm` that reads a packet at some time. -/
def reads (time : Dword) (data : List Byte) : FsmCall :=
  { data := some data, packet := { time := time }, t1 := { time := time }, t2 := { time := time } }

/-- The boot up to BOUND with a lease of 80 seconds that starts at 100, and T1 at 140. -/
def bootOps : List Op :=
  [.boot {} true, .turn {} 1 true true,
    .turn (reads 100 (reply 1 (option1 53 2 ++ option4 54 9 ++ option4 51 80 ++ [255]))) 1 true true,
    .turn (reads 100 (ack 80)) 1 true true]

/-- The renewal at 140 for a lease of 40 seconds arms the timers of the old one. -/
theorem renewal_unlawful : ¬ Always (step ourConfig) (LeaseLawful ourConfig) {}
    (bootOps ++ [.daemon { t1 := { time := 140 } }, .daemon (reads 141 (ack 40))]) := by
  rintro ⟨-, -, -, -, -, h, -⟩
  have harmed := (h (reads 141 (ack 40)) (ack 40)
    ⟨fsmCall_daemon (by decide +kernel) (by decide +kernel) _, rfl, by decide +kernel⟩).armed
      (by decide +kernel) (by decide +kernel)
  exact absurd harmed (by decide +kernel)

theorem acksOk_of_noCall {op : Op} (h : fsmCall d op = none) : AcksOk cfg d op := by
  rintro c data ⟨hcall, -, -⟩
  rw [h] at hcall
  cases hcall

theorem acksOk_turn {now : Dword} {written added : Bool} (h : ∀ data, c.data = some data →
    packetIn cfg c d data = some .ack → AckOk cfg d c data) :
    AcksOk cfg d (.turn c now written added) := by
  rintro c' data ⟨hcall, hread, hack⟩
  rcases fsmCall_eq hcall with h' | ⟨_, _, _, h'⟩
  · cases h'
  · cases h'
    exact h data hread hack

theorem acksOk_daemon (h : ∀ data, c.data = some data →
    packetIn cfg c d data = some .ack → AckOk cfg d c data) : AcksOk cfg d (.daemon c) := by
  rintro c' data ⟨hcall, hread, hack⟩
  rcases fsmCall_eq hcall with h' | ⟨_, _, _, h'⟩
  · cases h'
    exact h data hread hack
  · cases h'

/-- A renewal for the same lease. -/
theorem renewal_lawful : Always (step ourConfig) (LeaseLawful ourConfig) {}
    (bootOps ++ [.daemon { t1 := { time := 140 } }, .daemon (reads 141 (ack 80))]) := by
  refine lease_lawful _ _ _ ⟨acksOk_of_noCall rfl, acksOk_turn ?_, acksOk_turn ?_, acksOk_turn ?_,
    acksOk_daemon ?_, acksOk_daemon ?_, trivial⟩
  · intro data hread _
    cases hread
  · intro data hread hack
    cases hread
    exact absurd hack (by decide +kernel)
  · intro data hread _
    have hdata : ack 80 = data := Option.some.inj hread
    rw [← hdata]
    refine ⟨fun _ _ => ⟨?_, ?_, ?_, ?_, ?_⟩, fun h => absurd h ?_⟩ <;> decide +kernel
  · intro data hread _
    cases hread
  · intro data hread _
    have hdata : ack 80 = data := Option.some.inj hread
    rw [← hdata]
    refine ⟨fun h => absurd h ?_, fun _ => ⟨?_, ?_, ?_, ?_⟩⟩ <;> decide +kernel

end Watt32.Dhcp
