import Watt32.Ip.Output

/-!
# Sending UDP datagrams

`udp_write` of `pctcp.c`, and `sock_write` and `sock_enqueue` on a UDP socket.

* `udpDatagram`: the datagram that `udp_write` hands to `_ip4_output` or `_ip6_output`.
* `Wire`: what the calls meet: whether an output succeeds, and whether the socket is open after a tick.
* `sockWrite`, `sockEnqueue`: the datagrams of a call and its result.
* **`enqueue_iff`**: when `sock_enqueue` does what `sock_write` does.
-/

namespace Watt32.Udp

open Tcp (inChecksum)
open Ip (bytes16 stored16 pseudoChecksum udpProto)

/-! ## The source -/

/-- `_ip6_checksum` with the pseudo header `ph`. -/
def ip6Sum (ph payload : List Byte) : ℕ :=
  let chksum := inChecksum ph + inChecksum payload
  let chksum := chksum / 65536 + chksum % 65536
  let chksum := chksum + chksum / 65536
  let chksum := 65535 - chksum % 65536
  if chksum = 0 then 65535 else chksum

/-- The UDP header of a datagram with `len` bytes of data. -/
def udpHeader (myport hisport : Word) (len : ℕ) (checksum : Word) : List Byte :=
  bytes16 myport ++ bytes16 hisport ++ bytes16 (BitVec.ofNat 16 (8 + len)) ++ stored16 checksum

/-- The pseudo header of `_ip6_checksum`. -/
def pseudo6 (src dst : List Byte) (len : ℕ) : List Byte :=
  src ++ dst ++ bytes16 (BitVec.ofNat 16 len) ++ [0, 0, 0, 17]

/-- The checksum that `udp_write` puts into the header. -/
def udpSum (g : Globals) (s : UdpSocket) (data : List Byte) : Word :=
  let udp := udpHeader s.myport s.hisport data.length 0 ++ data
  if s.isIp6 then
    BitVec.ofNat 16 (ip6Sum (pseudo6 g.in6addrMyIp s.his6addr (8 + data.length)) udp)
  else if s.udpChk then
    pseudoChecksum s.myaddr s.hisaddr udpProto (BitVec.ofNat 16 (8 + data.length))
      (BitVec.ofNat 16 (inChecksum udp))
  else 0

/-- The datagram of `udp_write`. -/
def udpDatagram (g : Globals) (s : UdpSocket) (data : List Byte) : List Byte :=
  udpHeader s.myport s.hisport data.length (udpSum g s data) ++ data

/-- `_mtu`, above `UDP_OVERHEAD`. -/
structure Mtu where
  mtu : ℕ
  room : 28 < mtu

/-- `_mtu - UDP_OVERHEAD`. -/
def Mtu.chunk (m : Mtu) : ℕ := m.mtu - 28

theorem Mtu.chunk_pos (m : Mtu) : 0 < m.chunk := Nat.sub_pos_of_lt m.room

/-- Whether the output number `i` of a call succeeds, and whether the socket is open after the `tcp_tick` behind
it. -/
structure Wire where
  sent : ℕ → Bool := fun _ => true
  opened : ℕ → Bool := fun _ => true

section Calls

variable (m : Mtu) (w : Wire) (g : Globals) (s : UdpSocket)

/-- The loop of `sock_write` from the output number `i` on. -/
def writeLoop (len : ℤ) (i : ℕ) (data : List Byte) : List (List Byte) × ℤ :=
  if w.sent i = false then ([], 0)
  else if h : data.drop m.chunk = [] then ([udpDatagram g s (data.take m.chunk)], len)
  else if w.opened i = false then ([udpDatagram g s (data.take m.chunk)], 0)
  else
    let r := writeLoop len (i + 1) (data.drop m.chunk)
    (udpDatagram g s (data.take m.chunk) :: r.1, r.2)
termination_by data.length
decreasing_by
  have := m.chunk_pos
  rw [List.drop_eq_nil_iff] at h
  rw [List.length_drop]
  omega

/-- `sock_write` on a UDP socket: the datagrams sent and the result. -/
def sockWrite (data : List Byte) : List (List Byte) × ℤ := writeLoop m w g s data.length 0 data

/-- The loop of `sock_enqueue` from the output number `i` on, with `len` bytes to go by the variable of that
name. -/
def enqueueLoop (i : ℕ) (data : List Byte) (len : ℕ) (total : ℕ) : List (List Byte) × ℤ :=
  let chunk := min m.chunk len
  if w.sent i = false then ([], total)
  else
    let written := chunk
    if 0 < chunk - written then
      let r := enqueueLoop (i + 1) (data.drop written) (chunk - written) (total + written)
      (udpDatagram g s (data.take chunk) :: r.1, r.2)
    else ([udpDatagram g s (data.take chunk)], ((total + written : ℕ) : ℤ))
termination_by len
decreasing_by omega

/-- `sock_enqueue` on a UDP socket. -/
def sockEnqueue (data : List Byte) : List (List Byte) × ℤ :=
  if data.length ≤ 0 then ([], 0) else enqueueLoop m w g s 0 data data.length 0

/-- `sock_enqueue` is `sock_write`: the datagrams and the result are the same, and when nothing fails they
carry all the data. -/
structure AsWrite (data : List Byte) : Prop where
  datagrams : (sockEnqueue m w g s data).1 = (sockWrite m w g s data).1
  result : (sockEnqueue m w g s data).2 = (sockWrite m w g s data).2
  all : (∀ i, w.sent i = true ∧ w.opened i = true) →
    ((sockEnqueue m w g s data).1.map (List.drop 8)).flatten = data

/-! ## One turn -/

variable {m w g s} {data : List Byte}

theorem length_udpHeader {a b c : Word} {len : ℕ} : (udpHeader a b len c).length = 8 := rfl

theorem drop_udpDatagram : (udpDatagram g s data).drop 8 = data := by
  unfold udpDatagram
  exact List.drop_left' length_udpHeader

/-- The loop of `sock_enqueue` never turns twice: `len` is what is left of the chunk. -/
theorem sockEnqueue_eq (hdata : 0 < data.length) : sockEnqueue m w g s data =
    if w.sent 0 = false then ([], 0)
    else ([udpDatagram g s (data.take m.chunk)], ((min m.chunk data.length : ℕ) : ℤ)) := by
  have htake : data.take (min m.chunk data.length) = data.take m.chunk := by
    rw [List.take_eq_take_iff]
    omega
  unfold sockEnqueue enqueueLoop
  rw [if_neg (by omega)]
  dsimp only
  rw [if_neg (by omega : ¬ 0 < min m.chunk data.length - min m.chunk data.length), htake, Nat.zero_add]
  rfl

/-- What fits into one datagram is sent by one output. -/
theorem sockWrite_short (hlen : data.length ≤ m.chunk) : sockWrite m w g s data =
    if w.sent 0 = false then ([], 0) else ([udpDatagram g s (data.take m.chunk)], (data.length : ℤ)) := by
  unfold sockWrite writeLoop
  rw [dif_pos (List.drop_eq_nil_of_le hlen)]

/-- What does not fit sends more than one, or nothing is reported. -/
theorem sockWrite_long (hlen : m.chunk < data.length) (hsent : w.sent 0 = true) :
    (sockWrite m w g s data).2 = 0 ∨ 1 < (sockWrite m w g s data).1.length := by
  unfold sockWrite writeLoop
  have hrest : data.drop m.chunk ≠ [] := fun h => (List.drop_eq_nil_iff.mp h).not_gt hlen
  rw [hsent, if_neg Bool.noConfusion, dif_neg hrest]
  by_cases hopen : w.opened 0 = false
  · rw [if_pos hopen]
    exact .inl rfl
  · rw [if_neg hopen]
    dsimp only
    by_cases hnext : w.sent (0 + 1) = false
    · left
      unfold writeLoop
      rw [if_pos hnext]
    · right
      rw [List.length_cons, writeLoop, if_neg hnext]
      split_ifs <;> simp

end Calls

/-- **`sock_enqueue` on a UDP socket** does what `sock_write` does exactly when the first output fails or
there are data that fit into one datagram. -/
theorem enqueue_iff (m : Mtu) (w : Wire) (g : Globals) (s : UdpSocket) (data : List Byte) :
    AsWrite m w g s data ↔ w.sent 0 = false ∨ 0 < data.length ∧ data.length ≤ m.chunk := by
  rcases Nat.eq_zero_or_pos data.length with hzero | hpos
  · have hdata : data = [] := List.length_eq_zero_iff.mp hzero
    have henqueue : sockEnqueue m w g s data = ([], 0) := if_pos hzero.le
    have hwrite := @sockWrite_short m w g s data (by omega)
    rw [or_iff_left (by omega)]
    constructor
    · intro h
      by_contra hsent
      have hd := h.datagrams
      rw [henqueue, hwrite, if_neg hsent] at hd
      cases hd
    · intro hsent
      rw [if_pos hsent] at hwrite
      refine ⟨by rw [henqueue, hwrite], by rw [henqueue, hwrite], fun hall => ?_⟩
      rw [(hall 0).1] at hsent
      cases hsent
  · have henqueue := sockEnqueue_eq (m := m) (w := w) (g := g) (s := s) hpos
    by_cases hlen : data.length ≤ m.chunk
    · refine iff_of_true ?_ (.inr ⟨hpos, hlen⟩)
      have hsame : sockEnqueue m w g s data = sockWrite m w g s data := by
        rw [henqueue, sockWrite_short hlen, min_eq_right hlen]
      refine ⟨by rw [hsame], by rw [hsame], fun hall => ?_⟩
      rw [henqueue, (hall 0).1, if_neg Bool.noConfusion]
      simp [drop_udpDatagram, List.take_of_length_le hlen]
    · rw [or_iff_left fun h => hlen h.2]
      constructor
      · intro h
        by_contra hsent
        have hsent' : w.sent 0 = true := by simpa using hsent
        have hchunk := m.chunk_pos
        rw [if_neg hsent] at henqueue
        have hd := h.datagrams
        have hr := h.result
        rw [henqueue] at hd hr
        rcases sockWrite_long (g := g) (s := s) (not_le.mp hlen) hsent' with hzero | hmore
        · rw [hzero] at hr
          dsimp only at hr
          omega
        · rw [← hd] at hmore
          exact absurd hmore (by simp)
      · intro hsent
        rw [if_pos hsent] at henqueue
        have hwrite : sockWrite m w g s data = ([], 0) := by
          unfold sockWrite writeLoop
          rw [if_pos hsent]
        refine ⟨by rw [henqueue, hwrite], by rw [henqueue, hwrite], fun hall => ?_⟩
        rw [(hall 0).1] at hsent
        cases hsent

/-- Two bytes and an MTU of 29: one byte is sent. -/
theorem enqueue_truncates : ¬ AsWrite ⟨29, by decide⟩ {} {} (echoSocket false) [7, 8] := by
  intro h
  have hall := h.all fun _ => ⟨rfl, rfl⟩
  have hone : (sockEnqueue ⟨29, by decide⟩ {} {} (echoSocket false) [7, 8]).1 =
      [udpDatagram {} (echoSocket false) [7]] := by
    rw [sockEnqueue_eq (by decide)]
    rfl
  rw [hone, List.map_singleton, drop_udpDatagram] at hall
  cases hall

end Watt32.Udp
