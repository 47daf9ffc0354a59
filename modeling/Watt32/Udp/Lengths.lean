import Watt32.Udp.Handler

/-!
# The length of a received UDP datagram

`_udp_handler` takes the length of a datagram from the UDP header and compares it with nothing but
the size of that header.

* `Enclosed`: the datagram ends where the IP payload does, or before.
* `Delivered`: the tests of `_udp_handler` let the datagram through.
* `Contained`: what is handed on lies in the IP payload, and an overlong datagram is not handed on.
* **`contained_iff`**: that holds exactly of the datagrams that are enclosed or not delivered.
-/

namespace Watt32.Udp

open Tcp (Packet ver inGetHdrLen inLength in6Len sizeofIn6Header packetOf)

/-- The end of the IP payload, from the length in the IP header. -/
def ipEnd (ip : Packet) : ℕ := if ver ip = 4 then (inLength ip).toNat else sizeofIn6Header + (in6Len ip).toNat

/-- The datagram lies in the IP payload. -/
def Enclosed (ip : Packet) : Prop := udpHead ip + (udpLength ip).toNat ≤ ipEnd ip

instance : DecidablePred Enclosed := fun _ => inferInstanceAs (Decidable (_ ≤ _))

/-- The length has room for the header, both ports are not 0, a socket is found, and the sum lets
the datagram pass. -/
def Delivered (g : Globals) (broadcast : Bool) (ip : Packet) (socks : List UdpSocket) : Prop :=
  8 ≤ (udpLength ip).toNat ∧ PortsOk ip ∧
    let d := udpDemux g (ipBcast g broadcast ip) ip socks
    ∃ i ∈ d.found, ∃ s ∈ d.socks[i]?, sumPasses ip s = true

/-- What `_udp_handler` hands to a socket or a `protoHandler` is a part of the IP payload, and a
datagram longer than the payload is not handed on. -/
def Contained (g : Globals) (broadcast : Bool) (ip : Packet) (socks : List UdpSocket) : Prop :=
  (∀ data ∈ (udpHandler g broadcast ip socks).handed,
    data = Mem.slice ip (udpHead ip + 8) data.length ∧ udpHead ip + 8 + data.length ≤ ipEnd ip) ∧
  (ipEnd ip < udpHead ip + (udpLength ip).toNat → (udpHandler g broadcast ip socks).handed = none)

section Handed

variable {g : Globals} {broadcast : Bool} {ip : Packet} {socks : List UdpSocket}

/-- **What is handed on**: the datagram without its header, if it is delivered. -/
theorem handed_eq (data : List Byte) : (udpHandler g broadcast ip socks).handed = some data ↔
    Delivered g broadcast ip socks ∧ data = (datagram ip).drop 8 := by
  unfold udpHandler Delivered
  dsimp only
  by_cases hlen : (udpLength ip).toNat < 8
  · rw [if_pos hlen]
    exact iff_of_false nofun fun h => hlen.not_ge h.1.1
  · rw [if_neg hlen]
    by_cases hports : dstPort ip = 0 ∨ srcPort ip = 0
    · rw [if_pos hports]
      exact iff_of_false nofun fun h => hports.elim h.1.2.1.1 h.1.2.1.2
    · have hok : PortsOk ip := not_or.mp hports
      rw [if_neg hports]
      generalize udpDemux g (ipBcast g broadcast ip) ip socks = d
      cases hfound : d.found with
      | none => exact iff_of_false nofun fun ⟨⟨_, _, i, hi, _⟩, _⟩ => absurd hi (Option.not_mem_none i)
      | some i =>
        dsimp only
        by_cases hsum : (d.socks[i]?.map (sumPasses ip)).getD false = true
        · rw [if_pos hsum]
          obtain ⟨s, hs, hpass⟩ : ∃ s ∈ d.socks[i]?, sumPasses ip s = true := by
            cases hsock : d.socks[i]? with
            | none => simp [hsock] at hsum
            | some s => exact ⟨s, rfl, by simpa [hsock] using hsum⟩
          refine ⟨fun h => ?_, fun h => congrArg some h.2.symm⟩
          exact ⟨⟨not_lt.mp hlen, hok, i, rfl, s, hs, hpass⟩, (Option.some_inj.mp h).symm⟩
        · rw [if_neg hsum]
          refine iff_of_false nofun fun ⟨⟨_, _, j, hj, s, hs, hpass⟩, _⟩ => hsum ?_
          obtain rfl := Option.some_inj.mp hj
          rw [Option.mem_def.mp hs]
          exact hpass

theorem drop_datagram : (datagram ip).drop 8 = Mem.slice ip (udpHead ip + 8) ((udpLength ip).toNat - 8) :=
  Mem.drop_slice

/-- **UDP delivers only bytes of the datagram** exactly if the datagram is enclosed or not delivered. -/
theorem contained_iff (g : Globals) (broadcast : Bool) (ip : Packet) (socks : List UdpSocket) :
    Contained g broadcast ip socks ↔ Enclosed ip ∨ ¬ Delivered g broadcast ip socks := by
  by_cases hdel : Delivered g broadcast ip socks
  · rw [or_iff_left (not_not.mpr hdel)]
    have hhanded := (handed_eq ((datagram ip).drop 8)).mpr ⟨hdel, rfl⟩
    constructor
    · intro h
      by_contra hlong
      have hnone := h.2 (not_le.mp hlong)
      rw [hhanded] at hnone
      cases hnone
    · intro h
      refine ⟨fun data hdata => ?_, fun hlong => absurd h hlong.not_ge⟩
      obtain rfl := ((handed_eq data).mp hdata).2
      have hlen := hdel.1
      unfold Enclosed at h
      rw [drop_datagram, Mem.length_slice]
      exact ⟨rfl, by omega⟩
  · refine iff_of_true ⟨fun data hdata => ?_, fun _ => ?_⟩ (.inr hdel)
    · exact absurd ((handed_eq data).mp hdata).1 hdel
    · rw [Option.eq_none_iff_forall_ne_some]
      exact fun data hdata => hdel ((handed_eq data).mp hdata).1

end Handed

/-! ## A long length -/

/-- A byte 7 from port 1024 to port 7 in an IP packet of 29 bytes; the UDP header says 40, without a
checksum. -/
def longDatagram : Packet := packetOf (header4 ++ [4, 0, 0, 7, 0, 40, 0, 0, 7])

/-- 32 bytes are handed to the socket, one of which has been received. -/
theorem overlong_delivered : ¬ ∀ (g : Globals) (broadcast : Bool) (ip : Packet) (socks : List UdpSocket),
    Contained g broadcast ip socks := by
  intro h
  have hnone := (h {} false longDatagram [echoSocket false]).2 (by decide +kernel)
  revert hnone
  decide +kernel

end Watt32.Udp
