import Watt32.Lib.Run
import Watt32.Pcrecv.Handler

/-!
# The byte stream of the alternative receiver

Data and calls of `sock_recv`, in any order, on a TCP socket after `sock_recv_init`.

* `TcpState`: the socket with the bytes received and returned; `TcpAct`, `tcpStep`: the steps.
* `StreamLaw`: the bytes returned begin the stream, and the data is inside the space.
* `OnceInSpace`: the steps that the code is right on.
* **`stream_of_once`**: in runs of such steps the law holds in every state.
-/

namespace Watt32.Pcrecv

/-! ## The machine -/

/-- The socket, the bytes that the daemon took, and those that `sock_recv` returned. -/
structure TcpState where
  sock : Sock
  stream : List Byte := []
  returned : List Byte := []

/-- The steps. -/
inductive TcpAct
  | arrive (data : List Byte)
  | receive (buffer : ℕ → Byte) (len : ℕ)

/-- One step. The daemon's result tells how many bytes it took. -/
def tcpStep (longMax : ℤ) (s : TcpState) : TcpAct → TcpState
  | .arrive data =>
    let u := sockRecvdaemon s.sock 0 { data := data }
    { s with sock := u.sock, stream := s.stream ++ data.take u.ret }
  | .receive buffer len =>
    let r := sockRecv longMax s.sock buffer len
    { s with sock := r.sock, returned := s.returned ++ Mem.slice r.out.buffer 0 r.ret.toNat }

/-! ## The law -/

/-- Nothing is lost or returned twice, and the data ends inside the `len` bytes of the space. -/
structure StreamLaw (len : ℕ) (s : TcpState) : Prop where
  order : s.returned <+: s.stream
  inside : s.sock.rxDatalen ≤ len

/-- The bytes that come end inside the space where the socket accepts them; a call finds no data, has no room, or
is the first to return something. -/
def OnceInSpace (len : ℕ) (s : TcpState) : TcpAct → Prop
  | .arrive data =>
    s.sock.rxDatalen + 1 < s.sock.maxRxData → min (s.sock.rxDatalen + data.length) s.sock.maxRxData ≤ len
  | .receive _ n => n = 0 ∨ s.sock.rxDatalen = 0 ∨ s.returned = []

variable {longMax : ℤ} {len n : ℕ} {s : TcpState} {data : List Byte} {buffer : ℕ → Byte} {sock : Sock}

/-! ## Steps -/

/-- The space holds the stream. -/
structure TcpGood (len : ℕ) (s : TcpState) : Prop where
  tcp : s.sock.ipType = .tcp
  sig : s.sock.recvSig = recvUsed
  unsigned : s.sock.maxRxData < 2 ^ 32
  le_max : s.sock.rxDatalen ≤ s.sock.maxRxData
  length : s.stream.length = s.sock.rxDatalen
  space : Mem.slice s.sock.space 0 s.sock.rxDatalen = s.stream
  law : StreamLaw len s

/-- What the daemon does with data. -/
theorem sockRecvdaemon_tcp (htcp : sock.ipType = .tcp) (hsig : sock.recvSig = recvUsed)
    (hmax : sock.maxRxData < 2 ^ 32) (hle : sock.rxDatalen ≤ sock.maxRxData) :
    sockRecvdaemon sock 0 { data := data } =
      if sock.rxDatalen + 1 < sock.maxRxData then
        { sock := { sock with
            space := Mem.put sock.space sock.rxDatalen (data.take (min data.length (sock.maxRxData - sock.rxDatalen)))
            rxDatalen := sock.rxDatalen + min data.length (sock.maxRxData - sock.rxDatalen) }
          seqNum := 0
          ret := min data.length (sock.maxRxData - sock.rxDatalen) }
      else { sock := sock, seqNum := 0 } := by
  have hroom : (sock.maxRxData + 2 ^ 32 - sock.rxDatalen) % 2 ^ 32 = sock.maxRxData - sock.rxDatalen := by omega
  have hiff : 1 < sock.maxRxData - sock.rxDatalen ↔ sock.rxDatalen + 1 < sock.maxRxData := by omega
  cases sock
  subst htcp
  refine (if_neg (not_not.mpr hsig)).trans ?_
  dsimp only at hroom hiff ⊢
  rw [hroom]
  simp only [hiff]

/-- A call returns the bytes at the start of the space. -/
theorem sockRecv_tcp (htcp : sock.ipType = .tcp) (hsig : sock.recvSig = recvUsed) :
    sockRecv longMax sock buffer n =
      { sock := sock
        ret := (min n sock.rxDatalen : ℕ)
        out := { buffer := Mem.blit buffer 0 sock.space 0 (min n sock.rxDatalen) } } := by
  cases sock
  subst htcp
  exact if_neg (not_not.mpr hsig)

theorem TcpGood.arrive (h : TcpGood len s) (hin : OnceInSpace len s (.arrive data)) :
    TcpGood len (tcpStep longMax s (.arrive data)) := by
  have hin : s.sock.rxDatalen + 1 < s.sock.maxRxData →
      min (s.sock.rxDatalen + data.length) s.sock.maxRxData ≤ len := hin
  have hlength := h.length
  have hle := h.le_max
  unfold tcpStep
  dsimp only
  rw [sockRecvdaemon_tcp h.tcp h.sig h.unsigned h.le_max]
  split_ifs with hroom
  · have hfit := hin hroom
    have htake : (data.take (min data.length (s.sock.maxRxData - s.sock.rxDatalen))).length =
        min data.length (s.sock.maxRxData - s.sock.rxDatalen) := by
      rw [List.length_take]
      omega
    refine ⟨h.tcp, h.sig, h.unsigned, ?_, ?_, ?_, ?_, ?_⟩
    · dsimp only
      omega
    · rw [List.length_append, htake, hlength]
    · dsimp only
      rw [Mem.slice_add, Nat.zero_add, Mem.slice_put_disjoint (.inl (by omega)), h.space]
      congr 1
      have hput : Mem.slice (Mem.put s.sock.space s.sock.rxDatalen _) s.sock.rxDatalen
          (data.take (min data.length (s.sock.maxRxData - s.sock.rxDatalen))).length = _ := Mem.slice_put
      rwa [htake] at hput
    · exact h.law.order.trans (List.prefix_append ..)
    · dsimp only
      omega
  · rw [List.take_zero, List.append_nil]
    exact h

theorem TcpGood.receive (h : TcpGood len s) (honce : OnceInSpace len s (.receive buffer n)) :
    TcpGood len (tcpStep longMax s (.receive buffer n)) := by
  have honce : n = 0 ∨ s.sock.rxDatalen = 0 ∨ s.returned = [] := honce
  have hstep : tcpStep longMax s (.receive buffer n) =
      { s with returned := s.returned ++ s.stream.take (min n s.sock.rxDatalen) } := by
    have hslice : Mem.slice s.sock.space 0 (min n s.sock.rxDatalen) = s.stream.take (min n s.sock.rxDatalen) := by
      rw [← h.space, Mem.take_slice, min_eq_left (min_le_right ..)]
    unfold tcpStep
    dsimp only
    rw [sockRecv_tcp h.tcp h.sig]
    dsimp only
    rw [Int.toNat_natCast, Mem.slice_blit_self, hslice]
  rw [hstep]
  refine { h with law := ⟨?_, h.law.inside⟩ }
  show s.returned ++ s.stream.take (min n s.sock.rxDatalen) <+: s.stream
  rcases honce with rfl | hzero | hnone
  · rw [Nat.zero_min, List.take_zero, List.append_nil]
    exact h.law.order
  · rw [hzero, Nat.min_zero, List.take_zero, List.append_nil]
    exact h.law.order
  · rw [hnone, List.nil_append]
    exact List.take_prefix ..

theorem tcpGood_step (a : TcpAct) (h : TcpGood len s) (hq : OnceInSpace len s a) :
    TcpGood len (tcpStep longMax s a) := by
  cases a with
  | arrive data => exact h.arrive hq
  | receive buffer n => exact h.receive hq

theorem tcpGood_init (sizeofRecvBuf : ℕ) (htcp : sock.ipType = .tcp) (hmax : sock.maxRxData < 2 ^ 32)
    (hempty : sock.rxDatalen = 0) (space : ℕ → Byte) (len : ℕ) :
    TcpGood len { sock := sockRecvInit sizeofRecvBuf sock space len } where
  tcp := htcp
  sig := rfl
  unsigned := hmax
  le_max := by
    show sock.rxDatalen ≤ _
    omega
  length := hempty.symm
  space := by
    show Mem.slice _ 0 sock.rxDatalen = []
    rw [hempty]
    rfl
  law := ⟨List.nil_prefix, by
    show sock.rxDatalen ≤ len
    omega⟩

/-! ## Runs -/

/-- **The stream of the alternative receiver**: on a socket that holds no data at `sock_recv_init`, when all data
that is accepted ends inside the space and only one call returns something, the bytes returned begin the stream in
every state, and no data is behind the space. -/
theorem stream_of_once (longMax : ℤ) (sizeofRecvBuf : ℕ) (sock : Sock) (htcp : sock.ipType = .tcp)
    (hmax : sock.maxRxData < 2 ^ 32) (hempty : sock.rxDatalen = 0) (space : ℕ → Byte) (len : ℕ) (as : List TcpAct)
    (hq : Machine.Always (tcpStep longMax) (OnceInSpace len) { sock := sockRecvInit sizeofRecvBuf sock space len } as) :
    Machine.Always (tcpStep longMax) (fun s a => StreamLaw len (tcpStep longMax s a))
      { sock := sockRecvInit sizeofRecvBuf sock space len } as :=
  Machine.always_of_invariant
    (fun _ a h hq => ⟨tcpGood_step a h hq, (tcpGood_step a h hq).law⟩) as
    (tcpGood_init sizeofRecvBuf htcp hmax hempty space len) hq

/-- Three bytes, one call. -/
theorem stream_of_once_three :
    Machine.Always (tcpStep 0) (fun s a => StreamLaw 100 (tcpStep 0 s a))
      { sock := sockRecvInit 1548 { ipType := .tcp, maxRxData := 100 } (fun _ => 0) 100 }
      [.arrive [1, 2], .arrive [3], .receive (fun _ => 0) 2] :=
  stream_of_once 0 1548 { ipType := .tcp, maxRxData := 100 } rfl (by decide) rfl (fun _ => 0) 100 _
    ⟨fun _ => by decide, fun _ => by decide, .inr (.inr rfl), trivial⟩

/-- The second call returns the first byte again. -/
theorem stream_returned_twice :
    ¬ Machine.Always (tcpStep 0) (fun s a => StreamLaw 100 (tcpStep 0 s a))
      { sock := sockRecvInit 1548 { ipType := .tcp, maxRxData := 100 } (fun _ => 0) 100 }
      [.arrive [1, 2], .receive (fun _ => 0) 1, .receive (fun _ => 0) 1] := by
  rintro ⟨-, -, hlaw, -⟩
  exact absurd hlaw.order (by decide)

end Watt32.Pcrecv
