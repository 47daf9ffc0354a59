import Watt32.Bsd.Gather

/-!
# Several buffers for one call

`readv_s` and `recvmsg` of `receive.c` against one call with a buffer for all, whose bytes are then put into the
elements of the vector.

* `streamRecv`, `dgramRecv`, `rawRecv`, `packetRecv`: the receiving calls.
* `placed`, `scatter`: what the elements get from the calls on them, and from one call.
* `ReceivesAsOne`, `ScatterLaw`: the elements get the same; `ScatterOk`: the vectors for which this is so.
* **`scatter_iff`**: these are all. **`vectored_iff`**: both directions together.
-/

namespace Watt32.Bsd

open Vectored

/-! ## The calls -/

/-- The count and the bytes of a call. -/
def received {S : Type} (r : S × Except SendErrno (List Byte)) : Ended S (List Byte) :=
  ⟨r.1, r.2.toOption.map List.length, r.2.toOption.getD []⟩

/-- `receive` on a stream socket. -/
def streamRecv (net : Tcp.Net) (a : RxArgs) : Call SendSocket StreamRx ℕ (List Byte) :=
  fun _ x len sk => (streamReceive net a x len sk).map received

/-- `receive` on a datagram socket. -/
def dgramRecv (a : RxArgs) : Call DgramBox DgramRx ℕ (List Byte) := fun _ x len b => (dgramReceive a x len b).map received

/-- `receive` on a raw socket. -/
def rawRecv (a : RxArgs) : Call RawBox RawRx ℕ (List Byte) := fun _ x len b => (rawReceiveFrom a x len b).map received

/-- `receive` on a packet socket. -/
def packetRecv {l : Link} (a : RxArgs) : Call (PacketBox l) (PacketRx l) ℕ (List Byte) :=
  fun _ x len b => some (received (packetReceive a x len b))

/-! ## The law -/

/-- What the calls on the elements put into them: no more than there is room for. -/
def placed : List ℕ → List (List Byte) → List (List Byte)
  | [], _ => []
  | _ :: lens, [] => [] :: placed lens []
  | len :: lens, c :: cs => c.take len :: placed lens cs

/-- What they get of the bytes of one call. -/
def scatter : List ℕ → List Byte → List (List Byte)
  | [], _ => []
  | len :: lens, bytes => bytes.take len :: scatter lens (bytes.drop len)

/-- A vector to receive into: the lengths of its elements. -/
structure RxVec where
  lens : List ℕ
  short : lens.sum < 2 ^ 31

/-- The elements get what they get of one call: the result is the same, and what is left to receive. -/
def ReceivesAsOne {S E Q : Type} (call : Call S E ℕ (List Byte)) (left : S → Q) (v : RxVec) : Prop :=
  ∀ (env : ℕ → E) (s : S),
    (vectored call id env v.lens s).map (fun r => (r.ret, placed v.lens r.seen, left r.state)) =
      (call false (env 0) v.lens.sum s).map fun r => (r.ret, scatter v.lens r.seen, left r.state)

/-- `readv_s` and `recvmsg` are one `recv` or `recvfrom`, in every state and whatever happens meanwhile. -/
def ScatterLaw (l : Link) : SockType → RxVec → Prop
  | .stream, v => ∀ (net : Tcp.Net) (a : RxArgs),
    ReceivesAsOne (streamRecv net a) (fun sk => (sk.tcp.s.rx.rxData, sk.tcp.s.rx.rxDatalen)) v
  | .dgram, v => ∀ a : RxArgs, ReceivesAsOne (dgramRecv a) (fun b => (b.inbox.s.rxData, b.queue)) v
  | .raw, v => ∀ a : RxArgs, ReceivesAsOne (rawRecv a) RawBox.bufs v
  | .packet, v => ∀ a : RxArgs, ReceivesAsOne (packetRecv a) (PacketBox.queue (l := l)) v

/-- The lengths for which it is so. -/
def ScatterOk (l : Link) : SockType → List ℕ → Prop
  | _, [] => False
  | _, [_] => True
  | .stream, _ => False
  | .dgram, _ => False
  | .raw, len :: next :: lens =>
    (∀ n ∈ next :: lens, n = 0) ∨ len + (next :: lens).sum < 20 ∨ 65535 < len ∨ len = 65535 ∧ next < 20
  | .packet, len :: _ => l.rxSize < len

/-! ## Vectors -/

section Vector

variable {S E Q : Type} {call : Call S E ℕ (List Byte)} {left : S → Q} {v : RxVec} {len next : ℕ} {lens : List ℕ}
  {env : ℕ → E} {s : S}

theorem scatter_flatten (lens : List ℕ) (bytes : List Byte) : (scatter lens bytes).flatten = bytes.take lens.sum := by
  induction lens generalizing bytes with
  | nil => rfl
  | cons len lens ih => rw [scatter, List.flatten_cons, ih, List.sum_cons, List.take_add]

theorem placed_nil (lens : List ℕ) : placed lens [] = lens.map fun _ => [] := by
  induction lens with
  | nil => rfl
  | cons len lens ih => rw [placed, ih, List.map_cons]

theorem scatter_nil (lens : List ℕ) : scatter lens [] = lens.map fun _ => [] := by
  induction lens with
  | nil => rfl
  | cons len lens ih => rw [scatter, List.take_nil, List.drop_nil, ih, List.map_cons]

/-- What fits into the first element is there. -/
theorem placed_first (lens : List ℕ) {bytes : List Byte} (hfit : bytes.length ≤ len) :
    placed (len :: lens) [bytes] = scatter (len :: lens) bytes := by
  rw [placed, scatter, List.drop_eq_nil_of_le hfit, placed_nil, scatter_nil]

theorem vectored_lens (call : Call S E ℕ (List Byte)) (env : ℕ → E) (v : RxVec) (s : S) :
    vectored call id env v.lens s = loop call id env 0 v.lens s 0 := by
  unfold vectored
  rw [List.map_id, tooLong_false (by rw [Nat.zero_add]; exact v.short)]
  exact if_neg Bool.false_ne_true

/-- One element. -/
theorem receivesAsOne_single (hv : v.lens = [len]) : ReceivesAsOne call left v := by
  intro env s
  rw [vectored_lens, hv, List.sum_singleton, loop_single, Option.map_map]
  rfl

/-- A call that returns at most `n` bytes. -/
theorem received_length {r : S × Except SendErrno (List Byte)} {n : ℕ} (h : ∀ bytes ∈ r.2.toOption, bytes.length ≤ n) :
    (received r).seen.length ≤ n := by
  obtain ⟨s, err | bytes⟩ := r
  · exact Nat.zero_le _
  · exact h bytes rfl

theorem received_ret {r : S × Except SendErrno (List Byte)} {n : ℕ} (h : ∀ bytes ∈ r.2.toOption, bytes.length ≤ n)
    (hn : n < len) : (received r).ret ≠ some len := by
  obtain ⟨s, err | bytes⟩ := r
  · exact (Option.some_ne_none _).symm
  · intro hret
    have hbytes := h bytes rfl
    have : bytes.length = len := Option.some.inj hret
    omega

theorem placed_more (lens : List ℕ) (c : List Byte) : placed lens [c, []] = placed lens [c] := by
  match lens with
  | [] => rfl
  | [_] => rfl
  | _ :: _ :: _ => simp [placed]

/-- A first call that is the whole one; when it fills its element, the second fails. -/
theorem receivesAsOne_first (hv : v.lens = len :: next :: lens)
    (hfirst : ∀ more e s, call more e len s = call false e v.lens.sum s)
    (hplaced : ∀ e s, ∀ r ∈ call false e v.lens.sum s, placed v.lens [r.seen] = scatter v.lens r.seen)
    (hsecond : ∀ e s, ∀ r ∈ call false e v.lens.sum s, r.ret = some len →
      len ≠ 0 ∧ ∀ more e', ∃ s', call more e' next r.state = some ⟨s', none, []⟩ ∧ left s' = left r.state) :
    ReceivesAsOne call left v := by
  intro env s
  have hcall := hfirst true (env 0) s
  have hplaced := hplaced (env 0) s
  have hsecond := hsecond (env 0) s
  rw [vectored_lens]
  generalize call false (env 0) v.lens.sum s = whole at *
  rw [hv] at hplaced ⊢
  cases whole with
  | none =>
    rw [loop_waits hcall]
    rfl
  | some r =>
    have hplaced := hplaced r rfl
    obtain ⟨s', ret, bytes⟩ := r
    by_cases hfull : ret = some len
    · subst hfull
      obtain ⟨hlen, hfails⟩ := hsecond _ rfl rfl
      obtain ⟨s₂, hcall₂, hleft⟩ := hfails (!lens.isEmpty) (env 1)
      rw [loop_second_fails hcall hcall₂]
      simp only [Option.map_some, placed_more, hplaced, hleft, id, if_neg hlen]
    · rw [loop_stops hcall hfull]
      simp only [Option.map_some, hplaced]

end Vector

/-! ## Stream sockets -/

section Stream

variable {len : ℕ}

/-- A large buffer that holds `n` bytes. -/
def filledRx (n : Dword) : Tcp.RxBuf :=
  { (Tcp.establishedConn []).s.rx with maxRxData := 0x80000001, rxDatalen := n }

/-- A connection with this buffer. -/
def filledConn (n : Dword) : Tcp.Conn := (Tcp.establishedConn []).upd fun s => { s with rx := filledRx n }

/-- A blocking socket with this connection and a pending error, or none. -/
def filledSocket (n : Dword) (err : Option Errno) : SendSocket := quietSocket (filledConn n) err

/-- A call while an ICMP error arrives, or nothing. -/
def quietRx (err : Option Errno) : StreamRx := { turns := [{ tick := ⟨⟨{}, []⟩, { soError := err }⟩ }] }

theorem retransmit_filled (n : Dword) : Tcp.stepNet {} (filledConn n) ⟨{}, .conn .retransmit⟩ = filledConn n := rfl

theorem tick_filled (n : Dword) (err : Option Errno) :
    SockTick.run {} ⟨⟨{}, []⟩, { soError := err }⟩ (filledSocket n none) = filledSocket n err := by
  cases err <;> rfl

/-- There are bytes to be read. -/
theorem streamReceive_filled {n : Dword} (hn : 0 < n) (err : Option Errno) :
    streamReceive {} {} (quietRx err) len (filledSocket n none) =
      streamTaken {} {} (quietRx err) {} len false (filledSocket n err) := by
  have hloop : tcpReceiveLoop {} {} (quietRx err) len (quietRx err).turns (filledSocket n none) =
      streamTaken {} {} (quietRx err) {} len false (filledSocket n err) := by
    unfold quietRx tcpReceiveLoop
    dsimp only
    rw [tick_filled]
    have hstep : (filledSocket n err).updConn (fun c => Tcp.stepNet {} c ⟨{}, .conn .retransmit⟩) = filledSocket n err := rfl
    rw [hstep]
    exact if_pos hn
  exact hloop

/-- There are none, and none come. -/
theorem streamReceive_drained : streamReceive {} {} (quietRx none) len (filledSocket 0 none) = none := rfl

theorem toInt_ofNat (hlen : len < 2 ^ 31) : (BitVec.ofNat 32 len).toInt = len := by
  rw [BitVec.toInt_eq_toNat_cond, BitVec.toNat_ofNat, Nat.mod_eq_of_lt (by omega), if_pos (by omega)]

theorem readLen_filled {n : Dword} (hlen : len < 2 ^ 31) :
    Tcp.readLen (filledConn n).s (BitVec.ofNat 32 len) = Tcp.minLong (BitVec.ofNat 32 len) n := by
  unfold Tcp.readLen
  rw [toInt_ofNat hlen, if_neg (by omega)]
  rfl

theorem rxData_filled (n m : Dword) : (filledConn n).s.rx.rxData = (filledConn m).s.rx.rxData := rfl

theorem readRx_filled (n : Dword) : Tcp.readRx (filledRx n) n = filledRx 0 := by
  have hzero : n - n = 0 := BitVec.sub_self n
  have hlen : (filledRx n).rxDatalen = n := rfl
  unfold Tcp.readRx
  rw [hlen, hzero]
  rfl

theorem upd_rx (n : Dword) (f : Tcp.RxBuf → Tcp.RxBuf) : (filledConn n).upd (fun s => { s with rx := f s.rx }) =
    (Tcp.establishedConn []).upd fun s => { s with rx := f (filledRx n) } := rfl

theorem upd_filled (n : Dword) : (filledConn n).upd (fun s => { s with rx := Tcp.readRx s.rx n }) = filledConn 0 := by
  rw [upd_rx n fun b => Tcp.readRx b n, readRx_filled]
  rfl

/-- The bytes fill the buffer. -/
theorem tcpRead_filled {n maxlen : Dword} (hn : 0 < n.toInt) (hlen : Tcp.readLen (filledConn n).s maxlen = n) :
    Tcp.tcpRead {} (filledConn n) maxlen =
      (filledConn 0, Mem.slice (filledConn 0).s.rx.rxData 0 n.toNat, n.toInt) := by
  have hmove : ¬ 0 < (Tcp.toMove (filledConn 0).s.rx).toInt := by decide +kernel
  have hwin : Tcp.tcpUpdWin {} (filledConn 0) = filledConn 0 := if_neg (by decide +kernel)
  unfold Tcp.tcpRead
  rw [hlen]
  dsimp only
  rw [if_pos hn, upd_filled, if_neg hmove, hwin, rxData_filled n 0]

/-- The call takes all the bytes. -/
theorem streamRecv_filled (hpos : 0 < len) (hlen : len < 2 ^ 31) (more : Bool) :
    streamRecv {} {} more (quietRx none) len (filledSocket (BitVec.ofNat 32 len) none) =
      some ⟨filledSocket 0 none, some len, Mem.slice (filledConn 0).s.rx.rxData 0 len⟩ := by
  have hn : (0 : Dword) < BitVec.ofNat 32 len := by
    rw [BitVec.lt_def, BitVec.toNat_ofNat, Nat.mod_eq_of_lt (by omega)]
    exact hpos
  have htaken : streamTaken {} {} (quietRx none) {} len false (filledSocket (BitVec.ofNat 32 len) none) =
      some (filledSocket 0 none, .ok (Mem.slice (filledConn 0).s.rx.rxData 0 len)) := by
    have hmin : Tcp.minLong (BitVec.ofNat 32 len) (BitVec.ofNat 32 len) = BitVec.ofNat 32 len := ite_self _
    have hint := toInt_ofNat hlen
    have hnat : (BitVec.ofNat 32 len).toNat = len := Nat.mod_eq_of_lt (by omega)
    have htake : streamTake {} {} (quietRx none) {} len (filledSocket (BitVec.ofNat 32 len) none).tcp =
        some (Tcp.tcpRead {} (filledConn (BitVec.ofNat 32 len)) (BitVec.ofNat 32 len)) := rfl
    unfold streamTaken
    rw [htake, tcpRead_filled (by omega) ((readLen_filled hlen).trans hmin), hint, hnat, Option.map_some]
    dsimp only
    rw [if_pos (by omega)]
    rfl
  unfold streamRecv
  rw [streamReceive_filled hn, htaken, Option.map_some]
  simp only [received, Except.toOption, Option.map_some, Mem.length_slice, Option.getD_some]

/-- A call on a socket with bytes does not fail. -/
theorem streamRecv_some {n : Dword} (hn : 0 < n) (hpos : 0 ≤ n.toInt) (hlen : len < 2 ^ 31) (err : Option Errno)
    (more : Bool) : ∃ r, streamRecv {} {} more (quietRx err) len (filledSocket n none) = some r ∧ r.ret ≠ none := by
  have hread : 0 ≤ (Tcp.tcpRead {} (filledConn n) (BitVec.ofNat 32 len)).2.2 := by
    have hmin : 0 ≤ (Tcp.minLong (BitVec.ofNat 32 len) n).toInt := by
      unfold Tcp.minLong
      split
      · rw [toInt_ofNat hlen]
        omega
      · exact hpos
    unfold Tcp.tcpRead
    rw [readLen_filled hlen]
    dsimp only
    by_cases hsome : 0 < (Tcp.minLong (BitVec.ofNat 32 len) n).toInt
    · rw [if_pos hsome]
      exact hmin
    · have hfin : ¬ (Tcp.minLong (BitVec.ofNat 32 len) n = 0 ∧ (filledConn n).s.locflags.gotFin = true) :=
        fun h => Bool.false_ne_true h.2
      rw [if_neg hsome]
      dsimp only
      rw [if_neg hfin]
      exact hmin
  have htaken : ∃ sk bytes, streamTaken {} {} (quietRx err) {} len false (filledSocket n err) = some (sk, .ok bytes) := by
    have htake : streamTake {} {} (quietRx err) {} len (filledSocket n err).tcp =
        some (Tcp.tcpRead {} (filledConn n) (BitVec.ofNat 32 len)) := rfl
    unfold streamTaken
    rw [htake, Option.map_some]
    dsimp only
    split_ifs with hsome hneg
    · exact ⟨_, _, rfl⟩
    · omega
    · exact ⟨_, _, rfl⟩
  obtain ⟨sk, bytes, htaken⟩ := htaken
  refine ⟨received (sk, .ok bytes), ?_, Option.some_ne_none _⟩
  unfold streamRecv
  rw [streamReceive_filled hn, htaken, Option.map_some]

/-- No byte is asked for. -/
theorem streamRecv_zero (err : Option Errno) (more : Bool) :
    streamRecv {} {} more (quietRx err) 0 (filledSocket 1 none) = some ⟨filledSocket 1 err, some 0, []⟩ := by
  unfold streamRecv
  rw [streamReceive_filled (by decide)]
  rfl

/-- **Stream sockets**: the second element waits, or meets an error. -/
theorem scatter_stream (l : Link) (v : RxVec) : ScatterLaw l .stream v ↔ ScatterOk l .stream v.lens := by
  have hshort := v.short
  match hv : v.lens with
  | [] =>
    refine iff_of_false (fun h => ?_) fun h => h
    have heq := h {} {} (fun _ => quietRx none) (filledSocket 0 none)
    have hwaits : streamRecv {} {} false (quietRx none) v.lens.sum (filledSocket 0 none) = none := rfl
    rw [vectored_lens, hwaits, hv, loop_nil] at heq
    cases heq
  | [len] => exact iff_of_true (fun net a => receivesAsOne_single hv) trivial
  | len :: next :: lens =>
    refine iff_of_false (fun h => ?_) fun h => h
    have hsum : v.lens.sum = len + (next :: lens).sum := by rw [hv, List.sum_cons]
    by_cases hlen : len = 0
    · -- the second element meets the error that the first one left
      subst hlen
      have heq := h {} {} (fun _ => quietRx (some .ehostunreach)) (filledSocket 1 none)
      obtain ⟨r, hwhole, hret⟩ := @streamRecv_some v.lens.sum 1 (by decide) (by decide) hshort (some .ehostunreach) false
      have hfirst : streamRecv {} {} true (quietRx (some .ehostunreach)) 0 (filledSocket 1 none) =
          some ⟨filledSocket 1 (some .ehostunreach), some (id 0), []⟩ := streamRecv_zero _ true
      have hsecond : streamRecv {} {} (!lens.isEmpty) (quietRx (some .ehostunreach)) next
          (filledSocket 1 (some .ehostunreach)) = some ⟨filledSocket 1 none, none, []⟩ := rfl
      have hloop : loop (streamRecv {} {}) id (fun _ => quietRx (some .ehostunreach)) 0 (0 :: next :: lens)
          (filledSocket 1 none) 0 = some ⟨filledSocket 1 none, none, [[], []]⟩ := loop_second_fails hfirst hsecond
      rw [vectored_lens, hwhole, hv, hloop] at heq
      exact hret (congrArg Prod.fst (Option.some.inj heq)).symm
    · -- nothing comes for the second element
      have heq := h {} {} (fun _ => quietRx none) (filledSocket (BitVec.ofNat 32 len) none)
      have hfirst : streamRecv {} {} true (quietRx none) len (filledSocket (BitVec.ofNat 32 len) none) =
          some ⟨filledSocket 0 none, some (id len), _⟩ := streamRecv_filled (by omega) (by omega) true
      have hsecond : loop (streamRecv {} {}) id (fun _ => quietRx none) (0 + 1) (next :: lens) (filledSocket 0 none)
          (0 + id len) = none := loop_waits rfl
      have hn : (0 : Dword) < BitVec.ofNat 32 len := by
        rw [BitVec.lt_def, BitVec.toNat_ofNat, Nat.mod_eq_of_lt (by omega)]
        exact Nat.pos_of_ne_zero hlen
      obtain ⟨r, hwhole, -⟩ := @streamRecv_some v.lens.sum _ hn (by rw [toInt_ofNat (by omega)]; omega) hshort none false
      rw [vectored_lens, hwhole, hv, loop_full hfirst, hsecond] at heq
      cases heq

end Stream

/-! ## Datagram sockets -/

section Dgram

variable {len : ℕ}

/-- A `tcp_tick` that brings a datagram of one byte. -/
def byteTick : Udp.Tick := { arrivals := [{ ip := Udp.bytePacket4 }] }

/-- The socket that it is for, with the byte in its buffer or behind it. -/
def byteInbox (full : Bool) : Udp.Inbox where
  s := { Udp.takePeer false Udp.bytePacket4 (Udp.echoSocket false) with rxData := if full then [7] else [] }
  last := [7]
  taken := if full then 0 else 1

theorem byteTick_run : byteTick.run (byteInbox false) = byteInbox true := by
  have hsock : (byteTick.run (byteInbox false)).s = (byteInbox true).s := by decide +kernel
  have hlast : (byteTick.run (byteInbox false)).last = [7] := by decide +kernel
  have htaken : (byteTick.run (byteInbox false)).taken = 0 := by decide +kernel
  generalize byteTick.run (byteInbox false) = b at *
  obtain ⟨s, last, taken⟩ := b
  cases hsock
  cases hlast
  cases htaken
  rfl

theorem udpRead_full (hlen : len ≠ 0) : Udp.udpRead (byteInbox true) len = (byteInbox false, ⟨[7], 0, [7]⟩) := by
  have hneg : ¬ (len : ℤ) < 0 := by omega
  have hone : ¬ (len : ℤ) < ((byteInbox true).s.rxData.length : ℕ) := by
    change ¬ (len : ℤ) < ((1 : ℕ) : ℤ)
    omega
  unfold Udp.udpRead
  simp only [if_neg hneg, if_neg hone]
  rfl

theorem udpRead_drained : Udp.udpRead (byteInbox false) len = (byteInbox false, ⟨[7], 1, []⟩) := by
  have hneg : ¬ (len : ℤ) < 0 := by omega
  have hnone : ¬ (len : ℤ) < ((byteInbox false).s.rxData.length : ℕ) := hneg
  unfold Udp.udpRead
  simp only [if_neg hneg, if_neg hnone]
  rfl

/-- `MSG_WAITALL` puts the bytes of many datagrams together. -/
theorem dgramRead_all (n m : ℕ) (hm : 2 * n < m) (buf : List Byte) :
    dgramRead (List.replicate m byteTick) (byteInbox true) (n + 1) buf =
      some (byteInbox false, buf ++ List.replicate (n + 1) 7) := by
  induction n generalizing m buf with
  | zero =>
    obtain ⟨m, rfl⟩ : ∃ k, m = k + 1 := ⟨m - 1, by omega⟩
    rw [List.replicate_succ, dgramRead, udpRead_full (Nat.succ_ne_zero _)]
    rfl
  | succ n ih =>
    obtain ⟨m, rfl⟩ : ∃ k, m = k + 2 := ⟨m - 2, by omega⟩
    rw [List.replicate_succ, dgramRead, udpRead_full (Nat.succ_ne_zero _)]
    dsimp only
    rw [if_neg (List.cons_ne_nil _ _), if_neg (by simp), List.replicate_succ, List.length_singleton,
      Nat.add_sub_cancel, dgramRead, udpRead_drained]
    dsimp only
    rw [if_pos rfl, if_neg (by simp [byteTick]), byteTick_run, ih m (by omega), List.append_assoc]
    rfl

/-- A socket with this buffer. -/
def byteBox (full : Bool) : DgramBox := { inbox := byteInbox full }

/-- A call while datagrams arrive, for `m` turns of `sock_read`. -/
def byteRx (gotIcmp : Bool) (m : ℕ) : DgramRx := { turns := [{ gotIcmp := gotIcmp }], reads := List.replicate m byteTick }

/-- `MSG_WAITALL`, or no flag. -/
def waitArgs (waitall : Bool) : RxArgs := { flags := { waitall := waitall } }

/-- All is received. -/
theorem dgramRecv_all (m : ℕ) (hlen : len ≠ 0) (hm : 2 * len < m) (more : Bool) :
    dgramRecv (waitArgs true) more (byteRx false m) len (byteBox true) =
      some ⟨byteBox false, some len, List.replicate len 7⟩ := by
  obtain ⟨n, rfl⟩ := Nat.exists_eq_succ_of_ne_zero hlen
  have hread := dgramRead_all n m (by omega) []
  have hcall : dgramReceive (waitArgs true) (byteRx false m) (n + 1) (byteBox true) =
      (dgramRead (List.replicate m byteTick) (byteInbox true) (n + 1) []).map
        fun r => ({ byteBox true with inbox := r.1 }, .ok r.2) := rfl
  unfold dgramRecv
  rw [hcall, hread]
  simp only [Option.map_some, received, List.nil_append, Except.toOption, List.length_replicate, Option.getD_some]
  rfl

/-- Nothing arrives. -/
theorem dgramRecv_waits (waitall : Bool) (m : ℕ) (more : Bool) :
    dgramRecv (waitArgs waitall) more (byteRx false m) len (byteBox false) = none := rfl

/-- The host of the peer is gone. -/
theorem dgramRecv_refused (m : ℕ) (more : Bool) : ∃ b, dgramRecv (waitArgs false) more (byteRx true m) len (byteBox true) =
    some ⟨b, none, []⟩ := ⟨_, rfl⟩

/-- Without a flag the byte is received, if there is room for it. -/
theorem dgramRecv_byte (m : ℕ) (more : Bool) : ∃ r, dgramRecv (waitArgs false) more (byteRx false m) len (byteBox true) =
    some r ∧ r.ret ≠ none := ⟨_, rfl, Option.some_ne_none _⟩

theorem dgramRecv_zero (m : ℕ) (more : Bool) : dgramRecv (waitArgs false) more (byteRx false m) 0 (byteBox true) =
    some ⟨byteBox true, some 0, []⟩ := rfl

/-- **Datagram sockets**: the second element waits for another datagram. -/
theorem scatter_dgram (l : Link) (v : RxVec) : ScatterLaw l .dgram v ↔ ScatterOk l .dgram v.lens := by
  match hv : v.lens with
  | [] =>
    refine iff_of_false (fun h => ?_) fun h => h
    have heq := h (waitArgs false) (fun _ => byteRx false 0) (byteBox false)
    rw [vectored_lens, dgramRecv_waits, hv, loop_nil] at heq
    cases heq
  | [len] => exact iff_of_true (fun a => receivesAsOne_single hv) trivial
  | len :: next :: lens =>
    refine iff_of_false (fun h => ?_) fun h => h
    have hsum : v.lens.sum = len + (next :: lens).sum := by rw [hv, List.sum_cons]
    by_cases hlen : len = 0
    · -- the error comes between the first two elements
      subst hlen
      have heq := h (waitArgs false) (fun i => byteRx (i = 1) 0) (byteBox true)
      obtain ⟨r, hwhole, hret⟩ := @dgramRecv_byte v.lens.sum 0 false
      obtain ⟨b, hsecond⟩ := @dgramRecv_refused next 0 (!lens.isEmpty)
      have hfirst : dgramRecv (waitArgs false) true (byteRx (decide (0 = 1)) 0) 0 (byteBox true) =
          some ⟨byteBox true, some (id 0), []⟩ := rfl
      have hloop : loop (dgramRecv (waitArgs false)) id (fun i => byteRx (decide (i = 1)) 0) 0 (0 :: next :: lens)
          (byteBox true) 0 = some ⟨b, none, [[], []]⟩ := loop_second_fails hfirst hsecond
      rw [vectored_lens, hv, hloop, ← hv] at heq
      have hend := heq.trans (congrArg (Option.map _) hwhole)
      exact hret (congrArg Prod.fst (Option.some.inj hend)).symm
    · -- nothing comes for the second element
      obtain ⟨m, hm⟩ : ∃ m, 2 * v.lens.sum < m := ⟨_, Nat.lt_succ_self _⟩
      have heq := h (waitArgs true) (fun _ => byteRx false m) (byteBox true)
      have hfirst : dgramRecv (waitArgs true) true (byteRx false m) len (byteBox true) =
          some ⟨byteBox false, some (id len), List.replicate len 7⟩ := dgramRecv_all m hlen (by omega) true
      have hsecond : loop (dgramRecv (waitArgs true)) id (fun _ => byteRx false m) (0 + 1) (next :: lens) (byteBox false)
          (0 + id len) = none := loop_waits (dgramRecv_waits true m _)
      rw [vectored_lens, dgramRecv_all m (by omega) hm false, hv, loop_full hfirst, hsecond] at heq
      cases heq

end Dgram

/-! ## Raw sockets -/

section Raw

variable {s : RawSock.Socket} {buf : ℕ → Byte} {len len' : ℕ} {bufs : List RawSock.RawSlot} {a : RxArgs} {x : RawRx}
  {b : RawBox}

/-- A length field is a word: a buffer for the longest packet gets the same as a longer one. -/
theorem deliver_long (hlen : 65535 ≤ len) (hlen' : 65535 ≤ len') (i : ℕ) :
    RawSock.deliver s buf len bufs i = RawSock.deliver s buf len' bufs i := by
  have hword : s.ipLen (bufs.getD i {}) < 65536 := BitVec.isLt _
  have hhdr : s.hdrLen ≤ 40 := by
    unfold RawSock.Socket.hdrLen
    split <;> omega
  unfold RawSock.deliver
  simp only [min_eq_left (show s.hdrLen ≤ len by omega), min_eq_left (show s.hdrLen ≤ len' by omega),
    min_eq_left (show s.ipLen (bufs.getD i {}) - s.hdrLen ≤ len by omega),
    min_eq_left (show s.ipLen (bufs.getD i {}) - s.hdrLen ≤ len' by omega)]

theorem rawLoop_long (hlen : 65535 ≤ len) (hlen' : 65535 ≤ len') (rounds : List RawSock.Round) :
    RawSock.rawLoop s buf len rounds bufs = RawSock.rawLoop s buf len' rounds bufs := by
  have hlook : ∀ bufs, RawSock.look s buf len bufs = RawSock.look s buf len' bufs := by
    intro bufs
    unfold RawSock.look
    simp only [deliver_long hlen hlen']
  induction rounds generalizing bufs with
  | nil =>
    unfold RawSock.rawLoop
    rw [hlook]
  | cons r rounds ih =>
    unfold RawSock.rawLoop
    rw [hlook]
    simp only [ih]

theorem rawReceiveFrom_long (hlen : 65535 ≤ len) (hlen' : 65535 ≤ len') :
    rawReceiveFrom a x len b = rawReceiveFrom a x len' b := by
  have hsame : ∀ s buf rounds bufs,
      RawSock.rawReceive s buf len rounds bufs = RawSock.rawReceive s buf len' rounds bufs := by
    intro s buf rounds bufs
    have hhdr : s.hdrLen ≤ 40 := by
      unfold RawSock.Socket.hdrLen
      split <;> omega
    unfold RawSock.rawReceive
    rw [if_neg (by omega), if_neg (by omega), rawLoop_long hlen hlen']
  unfold rawReceiveFrom
  simp only [hsame]

theorem rawReceiveFrom_length (hlen : 65535 ≤ len) :
    ∀ r ∈ rawReceiveFrom a x len b, ∀ bytes ∈ r.2.toOption, bytes.length ≤ 65535 := by
  have hret : ∀ s buf rounds bufs, ∀ r ∈ RawSock.rawReceive s buf len rounds bufs, r.ret ≤ 65535 := by
    intro s buf rounds bufs r hr
    have hhdr : s.hdrLen ≤ 40 := by
      unfold RawSock.Socket.hdrLen
      split <;> omega
    unfold RawSock.rawReceive at hr
    rw [if_neg (by omega)] at hr
    have hends := @RawSock.rawLoop_ends s buf len rounds bufs
    rw [hr] at hends
    cases hends with
    | fails => exact Int.negSucc_le_zero 0 |>.trans (by decide)
    | delivers bufs i before hraws hbefore hready =>
      have hword : s.ipLen (bufs.getD i {}) < 65536 := BitVec.isLt _
      have hready := of_decide_eq_true hready
      rw [RawSock.deliver_ret]
      omega
  unfold rawReceiveFrom
  intro r hr bytes hbytes
  split_ifs at hr
  · cases hr
    cases hbytes
  · split at hr
    · cases hr
      cases hbytes
    · obtain ⟨q, hq, rfl⟩ := Option.map_eq_some_iff.mp hr
      have hlen := hret _ _ _ _ q hq
      dsimp only at hbytes
      split at hbytes
      · cases hbytes
      · cases hbytes
        rw [Mem.length_slice]
        omega

/-- A buffer that is too short for a header gets nothing. -/
theorem rawReceive_short (hlen : len < 20) (rounds : List RawSock.Round) :
    RawSock.rawReceive s buf len rounds bufs = some (RawSock.fail .einval buf bufs) := by
  have hhdr : 20 ≤ s.hdrLen := by
    unfold RawSock.Socket.hdrLen
    split <;> omega
  exact if_pos (by omega)

theorem rawReceiveFrom_short (hlen : len < 20) :
    ∃ b' err, rawReceiveFrom a x len b = some (b', .error err) ∧ b'.bufs = b.bufs := by
  unfold rawReceiveFrom
  split_ifs
  · exact ⟨b, _, rfl, rfl⟩
  · split
    · exact ⟨_, _, rfl, rfl⟩
    · rw [rawReceive_short hlen]
      exact ⟨_, _, rfl, rfl⟩

theorem rawReceiveFrom_both_short (hlen : len < 20) (hlen' : len' < 20) :
    rawReceiveFrom a x len b = rawReceiveFrom a x len' b := by
  unfold rawReceiveFrom
  simp only [rawReceive_short hlen, rawReceive_short hlen']

/-- Behind an element of zero length nothing is placed. -/
theorem placed_zeros {lens : List ℕ} (hzero : ∀ n ∈ lens, n = 0) (bytes : List Byte) :
    placed (len :: lens) [bytes] = scatter (len :: lens) bytes := by
  have hscatter : ∀ bytes, scatter lens bytes = lens.map fun _ => [] := by
    induction lens with
    | nil => exact fun _ => rfl
    | cons n lens ih =>
      intro bytes
      obtain ⟨hn, hrest⟩ := List.forall_mem_cons.mp hzero
      rw [scatter, hn, List.take_zero, ih hrest, List.map_cons]
  rw [placed, placed_nil, scatter, hscatter]

/-- The second element is too short for a header. -/
theorem rawRecv_second {next : ℕ} (hnext : next < 20) (more : Bool) :
    ∃ b', rawRecv a more x next b = some ⟨b', none, []⟩ ∧ b'.bufs = b.bufs := by
  obtain ⟨b', err, hfails, hbufs⟩ := @rawReceiveFrom_short next a x b hnext
  refine ⟨b', ?_, hbufs⟩
  unfold rawRecv
  rw [hfails]
  rfl

/-- The vectors that are received as one packet. -/
theorem raw_receivesAsOne {v : RxVec} {next : ℕ} {lens : List ℕ} (hv : v.lens = len :: next :: lens)
    (hok : (∀ n ∈ next :: lens, n = 0) ∨ len + (next :: lens).sum < 20 ∨ 65535 < len ∨ len = 65535 ∧ next < 20) :
    ReceivesAsOne (rawRecv a) RawBox.bufs v := by
  have hsum : v.lens.sum = len + (next :: lens).sum := by rw [hv, List.sum_cons]
  rcases hok with hzero | hshort | hlong | ⟨hfull, hnext⟩
  · have hrest : (next :: lens).sum = 0 := List.sum_eq_zero hzero
    have hnext : next = 0 := hzero next List.mem_cons_self
    have hall : v.lens.sum = len := by omega
    refine receivesAsOne_first hv (fun more e s => ?_) (fun e s r hr => ?_) fun e s r hr hret => ?_
    · rw [hall]
      rfl
    · rw [hv]
      exact placed_zeros hzero r.seen
    · refine ⟨fun hlen => ?_, fun more e' => rawRecv_second (by omega) more⟩
      obtain ⟨b', hfails, -⟩ := @rawRecv_second a e s v.lens.sum (by omega) false
      cases hr.symm.trans hfails
      cases hret
  · refine receivesAsOne_first hv (fun more e s => ?_) (fun e s r hr => ?_) fun e s r hr hret => ?_
    · exact congrArg (Option.map received) (rawReceiveFrom_both_short (by omega) (by omega))
    · obtain ⟨b', hfails, -⟩ := @rawRecv_second a e s v.lens.sum (by omega) false
      cases hr.symm.trans hfails
      rw [hv]
      exact placed_first _ (Nat.zero_le _)
    · obtain ⟨b', hfails, -⟩ := @rawRecv_second a e s v.lens.sum (by omega) false
      cases hr.symm.trans hfails
      cases hret
  · have hstop : ∀ e s, ∀ r ∈ rawRecv a false e v.lens.sum s, r.ret ≠ some len ∧ r.seen.length ≤ len := by
      intro e s r hr
      obtain ⟨q, hq, rfl⟩ := Option.map_eq_some_iff.mp hr
      have hbytes := rawReceiveFrom_length (by omega) q hq
      have hshort := received_length hbytes
      exact ⟨received_ret hbytes hlong, by omega⟩
    refine receivesAsOne_first hv (fun more e s => ?_) (fun e s r hr => ?_) fun e s r hr hret => ?_
    · exact congrArg (Option.map received) (rawReceiveFrom_long (by omega) (by omega))
    · rw [hv]
      exact placed_first _ (hstop e s r hr).2
    · exact absurd hret (hstop e s r hr).1
  · refine receivesAsOne_first hv (fun more e s => ?_) (fun e s r hr => ?_) fun e s r hr hret => ?_
    · exact congrArg (Option.map received) (rawReceiveFrom_long (by omega) (by omega))
    · obtain ⟨q, hq, rfl⟩ := Option.map_eq_some_iff.mp hr
      rw [hv]
      have hshort := received_length (rawReceiveFrom_length (by omega) q hq)
      exact placed_first _ (by omega)
    · exact ⟨by omega, fun more e' => rawRecv_second hnext more⟩

/-- A packet whose length field is `n`, or the buffer when it was handed over. -/
def wireSlot (used : Bool) (n : Word) : RawSock.RawSlot where
  used := used
  ip := fun i => if i = 2 then n.extractLsb' 8 8 else n.extractLsb' 0 8

/-- An IPv4 socket with this buffer. -/
def wireBox (used : Bool) (n : Word) : RawBox := { family := .inet, bufs := [wireSlot used n] }

theorem ipLen_wire (used : Bool) (n : Word) (lowat : ℕ) (nbio : Bool) :
    (RawSock.Socket.mk .inet lowat nbio).ipLen (wireSlot used n) = n.toNat := by
  have hword : n.extractLsb' 8 8 ++ n.extractLsb' 0 8 = n := by
    rw [BitVec.extractLsb'_append_extractLsb'_eq_extractLsb' (by rfl)]
    exact BitVec.extractLsb'_eq_self
  change (n.extractLsb' 8 8 ++ n.extractLsb' 0 8).toNat = n.toNat
  rw [hword]

/-- The packet is handed over. -/
theorem rawRecv_wire {n : Word} (hlen : 20 ≤ len) (hn : 20 ≤ n.toNat) (more : Bool) :
    ∃ bytes, rawRecv {} more {} len (wireBox true n) = some ⟨wireBox false n, some bytes.length, bytes⟩ ∧
      bytes.length = min (n.toNat - 20) len + 20 := by
  let s : RawSock.Socket := ⟨.inet, 0, false⟩
  let res := RawSock.deliver s (fun _ => 0) len [wireSlot true n] 0
  have hready : s.ready (wireSlot true n) = true := by
    refine decide_eq_true ?_
    rw [ipLen_wire]
    exact hn
  have hlook : RawSock.look s (fun _ => 0) len [wireSlot true n] = some res := if_pos hready
  have hcall : RawSock.rawReceive s (fun _ => 0) len [] [wireSlot true n] = some res := by
    have hhdr : ¬ len < s.hdrLen := not_lt.mpr hlen
    unfold RawSock.rawReceive RawSock.rawLoop
    rw [if_neg hhdr, hlook]
  have hret : res.ret = ((min (n.toNat - 20) len + 20 : ℕ) : ℤ) := by
    have hdeliver := @RawSock.deliver_ret s (fun _ => 0) len 0 [wireSlot true n]
    rw [show ([wireSlot true n].getD 0 {}) = wireSlot true n from rfl, ipLen_wire] at hdeliver
    exact hdeliver
  have hend : rawReceiveFrom {} {} len (wireBox true n) =
      some (wireBox false n, .ok (Mem.slice res.buf 0 res.ret.toNat)) := by
    change (RawSock.rawReceive s (fun _ => 0) len [] [wireSlot true n]).map _ = _
    rw [hcall]
    rfl
  refine ⟨Mem.slice res.buf 0 res.ret.toNat, ?_, ?_⟩
  · unfold rawRecv
    rw [hend]
    rfl
  · rw [Mem.length_slice, hret, Int.toNat_natCast]

/-- There is none. -/
theorem rawRecv_none {n : Word} (hlen : 20 ≤ len) (more : Bool) :
    rawRecv {} more {} len (wireBox false n) = none := by
  have hcall : RawSock.rawReceive ⟨.inet, 0, false⟩ (fun _ => 0) len [] [wireSlot false n] = none :=
    if_neg (not_lt.mpr hlen)
  unfold rawRecv
  change ((RawSock.rawReceive ⟨.inet, 0, false⟩ (fun _ => 0) len [] [wireSlot false n]).map _).map _ = _
  rw [hcall]
  rfl

/-- The vectors that are not. -/
theorem raw_not_asOne {v : RxVec} {next : ℕ} {lens : List ℕ} (hv : v.lens = len :: next :: lens)
    (hok : ¬ ((∀ n ∈ next :: lens, n = 0) ∨ len + (next :: lens).sum < 20 ∨ 65535 < len ∨ len = 65535 ∧ next < 20)) :
    ¬ ReceivesAsOne (rawRecv {}) RawBox.bufs v := by
  intro h
  have hsum : v.lens.sum = len + (next :: lens).sum := by rw [hv, List.sum_cons]
  push Not at hok
  obtain ⟨hrest, htotal, hlong, hnext⟩ := hok
  have hpos : 0 < (next :: lens).sum := by
    refine Nat.pos_of_ne_zero fun hzero => ?_
    obtain ⟨n, hn, hne⟩ := hrest
    exact hne (List.sum_eq_zero_iff.mp hzero n hn)
  by_cases hshort : len < 20
  · -- no room for the header in the first element
    have heq := h (fun _ => {}) (wireBox true 20)
    obtain ⟨b', hfails, -⟩ := @rawRecv_second {} {} (wireBox true 20) len hshort true
    obtain ⟨bytes, hwhole, -⟩ := @rawRecv_wire v.lens.sum 20 (by omega) (by decide) false
    rw [vectored_lens, hwhole, hv, loop_fails hfails] at heq
    exact nomatch (congrArg Prod.fst (Option.some.inj heq) :)
  · by_cases hfull : len = 65535
    · -- the second element waits for a packet
      have heq := h (fun _ => {}) (wireBox true 65535)
      obtain ⟨bytes₁, hfirst, hlen₁⟩ := @rawRecv_wire len 65535 (by omega) (by decide) true
      obtain ⟨bytes, hwhole, -⟩ := @rawRecv_wire v.lens.sum 65535 (by omega) (by decide) false
      have hsecond := @rawRecv_none next 65535 (hnext hfull) (!lens.isEmpty)
      have hfill : bytes₁.length = id len := by
        rw [hlen₁, hfull]
        rfl
      rw [hfill] at hfirst
      rw [vectored_lens, hwhole, hv, loop_full hfirst, loop_waits hsecond] at heq
      cases heq
    · -- the byte behind the first element is not in the second
      have heq := h (fun _ => {}) (wireBox true (BitVec.ofNat 16 (len + 1)))
      have hword : (BitVec.ofNat 16 (len + 1)).toNat = len + 1 := Nat.mod_eq_of_lt (by omega)
      obtain ⟨bytes₁, hfirst, hlen₁⟩ := @rawRecv_wire len (BitVec.ofNat 16 (len + 1)) (by omega) (by omega) true
      obtain ⟨bytes, hwhole, hlen⟩ := @rawRecv_wire v.lens.sum (BitVec.ofNat 16 (len + 1)) (by omega) (by omega) false
      rw [hword] at hlen hlen₁
      have hmore : bytes₁.length ≠ id len := by
        rw [id, hlen₁]
        omega
      rw [vectored_lens, hwhole, hv, loop_short hfirst hmore] at heq
      have hplaced := congrArg (fun r => r.2.1.flatten.length) (Option.some.inj heq)
      dsimp only at hplaced
      rw [scatter_flatten, placed, placed_nil, List.flatten_cons, List.length_append, List.length_take, List.length_take,
        List.sum_cons] at hplaced
      have hnil : ((next :: lens).map fun _ => ([] : List Byte)).flatten = [] := by simp
      rw [hnil, List.length_nil] at hplaced
      omega

/-- **Raw sockets**: a packet that fills the first element, or does not fit into it, is not put together. -/
theorem scatter_raw (l : Link) (v : RxVec) : ScatterLaw l .raw v ↔ ScatterOk l .raw v.lens := by
  match hv : v.lens with
  | [] =>
    refine iff_of_false (fun h => ?_) fun h => h
    have heq := h {} (fun _ => {}) (wireBox true 20)
    obtain ⟨b', hfails, -⟩ := @rawRecv_second {} {} (wireBox true 20) v.lens.sum (by rw [hv]; decide) false
    rw [vectored_lens, hfails, hv, loop_nil] at heq
    exact nomatch (congrArg Prod.fst (Option.some.inj heq) :)
  | [len] => exact iff_of_true (fun a => receivesAsOne_single hv) trivial
  | len :: next :: lens =>
    by_cases hok : ScatterOk l .raw (len :: next :: lens)
    · exact iff_of_true (fun a => raw_receivesAsOne hv hok) hok
    · exact iff_of_false (fun h => raw_not_asOne hv hok (h {})) hok

end Raw

/-! ## Packet sockets -/

section Packet

variable {l : Link} {a : RxArgs} {x : PacketRx l} {b : PacketBox l} {v : RxVec} {len : ℕ}

/-- A buffer that is longer than every frame gets the same as any other. -/
theorem packetReceive_long {len' : ℕ} (hlen : l.rxSize < len) (hlen' : l.rxSize < len') :
    packetReceive a x len b = packetReceive a x len' b := by
  have htake : ∀ b : PacketBox l, packetTake len b = packetTake len' b := by
    intro b
    unfold packetTake
    cases b.queue with
    | nil => rfl
    | cons f queue =>
      have hf := f.2
      dsimp only
      rw [List.take_of_length_le (by omega), List.take_of_length_le (by omega)]
  unfold packetReceive
  simp only [htake]

/-- A frame is not longer than a buffer of the socket. -/
theorem packetReceive_length : ∀ bytes ∈ (packetReceive a x len b).2.toOption, bytes.length ≤ l.rxSize := by
  have htake : ∀ b : PacketBox l, (packetTake len b).2.length ≤ l.rxSize := by
    intro b
    unfold packetTake
    cases b.queue with
    | nil => exact Nat.zero_le _
    | cons f queue =>
      have hf := f.2
      dsimp only
      rw [List.length_take]
      omega
  unfold packetReceive
  intro bytes hbytes
  split at hbytes
  · cases hbytes
  · split at hbytes
    · cases hbytes
    · cases hbytes
      exact htake _

/-- A frame that fills a buffer of the socket. -/
def fullFrame (l : Link) : { f : List Byte // f.length ≤ l.rxSize } :=
  ⟨List.replicate l.rxSize 0, List.length_replicate.le⟩

/-- A socket with these frames. -/
def queuedBox (queue : List { f : List Byte // f.length ≤ l.rxSize }) : PacketBox l := { queue := queue }

/-- Nothing arrives. -/
def quietPacket : PacketRx l := {}

/-- Each call takes a frame. -/
theorem packetRecv_two (more : Bool) : packetRecv {} more quietPacket len (queuedBox [fullFrame l, fullFrame l]) =
    some (received (queuedBox [fullFrame l], .ok ((fullFrame l).1.take len))) := rfl

theorem packetRecv_one (more : Bool) : packetRecv {} more quietPacket len (queuedBox [fullFrame l]) =
    some (received (queuedBox [], .ok ((fullFrame l).1.take len))) := rfl

/-- An empty queue stays empty. -/
theorem packetRecv_empty (more : Bool) (r : Ended (PacketBox l) (List Byte)) (hb : b.queue = [])
    (hr : packetRecv a more quietPacket len b = some r) : r.state.queue = [] := by
  cases hr
  change (packetReceive a quietPacket len b).1.queue = []
  unfold packetReceive
  split_ifs
  · exact hb
  · split
    · exact hb
    · have hqueue : (b.queue ++ quietPacket.frames).take (max b.queue.length b.room) = [] := by
        rw [hb]
        exact List.take_nil
      dsimp only
      rw [hqueue]
      rfl

/-- The second element takes the second frame. -/
theorem packet_takes_two {next : ℕ} {lens : List ℕ} {q : Ended (PacketBox l) (List (List Byte))} (hlen : len ≤ l.rxSize)
    (hq : loop (packetRecv {}) id (fun _ => quietPacket) 0 (len :: next :: lens)
      (queuedBox [fullFrame l, fullFrame l]) 0 = some q) : q.state.queue = [] := by
  have hfirst := @packetRecv_two l len true
  have hsecond := @packetRecv_one l next (!lens.isEmpty)
  have hfull : ((fullFrame l).1.take len).length = len := by
    unfold fullFrame
    simpa using hlen
  unfold received at hfirst hsecond
  dsimp only [Except.toOption, Option.map_some] at hfirst hsecond
  rw [hfull] at hfirst
  rw [loop_full hfirst, Option.map_eq_some_iff] at hq
  obtain ⟨q, hq, rfl⟩ := hq
  by_cases hnext : ((fullFrame l).1.take next).length = next
  · rw [hnext] at hsecond
    rw [loop_full hsecond, Option.map_eq_some_iff] at hq
    obtain ⟨q, hq, rfl⟩ := hq
    have hempty : q.state.queue = [] := by
      refine loop_state (I := fun b => b.queue = []) (fun more j len b r hb hr => ?_) rfl hq
      exact packetRecv_empty more r hb hr
    exact hempty
  · rw [loop_short hsecond hnext] at hq
    cases hq
    rfl

/-- **Packet sockets**: every element takes a frame, unless none fills the first. -/
theorem scatter_packet (l : Link) (v : RxVec) : ScatterLaw l .packet v ↔ ScatterOk l .packet v.lens := by
  match hv : v.lens with
  | [] =>
    refine iff_of_false (fun h => ?_) fun h => h
    have heq := h {} (fun _ => quietPacket) (queuedBox [fullFrame l, fullFrame l])
    rw [vectored_lens, hv, loop_nil, packetRecv_two] at heq
    have hleft : 2 = 1 := congrArg (fun r => r.2.2.length) (Option.some.inj heq)
    exact absurd hleft (by decide)
  | [len] => exact iff_of_true (fun a => receivesAsOne_single hv) trivial
  | len :: next :: lens =>
    by_cases hlong : l.rxSize < len
    · have hsum : v.lens.sum = len + (next :: lens).sum := by rw [hv, List.sum_cons]
      have hstop : ∀ a e s, ∀ r ∈ packetRecv (l := l) a false e v.lens.sum s, r.ret ≠ some len ∧ r.seen.length ≤ len := by
        intro a e s r hr
        cases hr
        have hshort := received_length (@packetReceive_length l a e s v.lens.sum)
        exact ⟨received_ret packetReceive_length hlong, by omega⟩
      refine iff_of_true (fun a => receivesAsOne_first hv ?_ ?_ ?_) hlong
      · intro more e s
        exact congrArg some (congrArg received (packetReceive_long hlong (by omega)))
      · intro e s r hr
        rw [hv]
        exact placed_first _ (hstop a e s r hr).2
      · intro e s r hr hfull
        exact absurd hfull (hstop a e s r hr).1
    · refine iff_of_false (fun h => ?_) hlong
      have heq := h {} (fun _ => quietPacket) (queuedBox [fullFrame l, fullFrame l])
      rw [vectored_lens, hv, packetRecv_two] at heq
      obtain ⟨q, hq, hqs⟩ := Option.map_eq_some_iff.mp heq
      have hleft := congrArg (fun r => r.2.2) hqs
      dsimp only at hleft
      rw [packet_takes_two (not_lt.mp hlong) hq] at hleft
      exact nomatch hleft

end Packet

/-- **`readv_s` and `recvmsg`** are one call for all the elements for these vectors. -/
theorem scatter_iff (l : Link) (t : SockType) (v : RxVec) : ScatterLaw l t v ↔ ScatterOk l t v.lens := by
  cases t with
  | stream => exact scatter_stream l v
  | dgram => exact scatter_dgram l v
  | raw => exact scatter_raw l v
  | packet => exact scatter_packet l v

/-- **Vectored calls**: they are one call with all the bytes, and one call for all the elements, for these
vectors. -/
theorem vectored_iff (l : Link) (t : SockType) (v : IoVec) (w : RxVec) : GatherLaw l t v ∧ ScatterLaw l t w ↔
    GatherOk l t (v.bufs.map bufLen) ∧ ScatterOk l t w.lens :=
  and_congr (gather_iff l t v) (scatter_iff l t w)

/-- Two elements of one byte. -/
def twoBuffers : IoVec where
  bufs := [⟨[7], by decide⟩, ⟨[8], by decide⟩]
  short := by decide

/-- They are two datagrams. -/
theorem two_datagrams : ¬ GatherLaw {} .dgram twoBuffers := by
  intro h
  have hlaw := (gather_iff {} .dgram twoBuffers).mp h
  exact absurd (show 65535 - 8 < 1 from hlaw) (by decide)

end Watt32.Bsd
