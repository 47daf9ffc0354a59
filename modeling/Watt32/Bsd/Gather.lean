import Watt32.Lib.Vectored
import Watt32.Bsd.Receive
import Watt32.Tcp.Keepalive

/-!
# One call for several buffers

`writev_s` and `sendmsg` of `transmit.c`, `readv_s` and `recvmsg` of `receive.c`: the call on one buffer, once for
every element of the vector.

* `vectored`: the four calls over the call on one buffer.
* `streamCall`, `plainCall`: the sending calls; `IoVec`: a vector.
* `SendsAsOne`, `GatherLaw`: a vector is sent as all its bytes together; `GatherOk`: the vectors for which this is so.
* **`gather_iff`**: these are all.
-/

namespace Watt32.Bsd

open Vectored
open Tcp (UserData)

/-! ## The calls -/

/-- `INT_MAX`. -/
def intMax : ℕ := 2 ^ 31 - 1

/-- The check of the lengths, with a sum of `max` so far. -/
def tooLong : ℕ → List ℕ → Bool
  | _, [] => false
  | max, len :: lens => intMax < len ∨ intMax < max + len ∨ tooLong (max + len) lens

/-- `writev_s`, `sendmsg`, `readv_s` and `recvmsg` over the call on one buffer. -/
def vectored {S E A V : Type} (call : Call S E A V) (size : A → ℕ) (env : ℕ → E) (as : List A) (s : S) :
    Option (Ended S (List V)) :=
  if tooLong 0 (as.map size) then some ⟨s, none, []⟩ else loop call size env 0 as s 0

/-- `transmit` on a stream socket. What is seen are the segments handed to `_ip4_output`. -/
def streamCall (net : Tcp.Net) (flags : MsgFlags) : Call SendSocket SendArgs UserData (List Tcp.OutSegment) :=
  fun more e data sk =>
    (streamTransmit net { e with data := data, flags := { flags with more := flags.more || more } } sk).map fun r =>
      ⟨r.1, r.2.toOption.map Int.toNat, (r.1.tcp.calls.drop sk.tcp.calls.length).flatMap Tcp.SendCall.segs⟩

/-- `transmit` on the other sockets. -/
def plainCall (h : Host) (t : SockType) (a : TxArgs) : Call DgramSocket TxEnv UserData (List Sent) :=
  fun more e data sk =>
    let r := transmitTo h t { a with flags := { a.flags with more := a.flags.more || more } } e data.bytes sk
    some ⟨r.sk, r.ret.toOption, r.sent⟩

/-! ## The law -/

/-- An element of a vector to send: how long it is. -/
def bufLen (data : UserData) : ℕ := data.bytes.length

/-- A vector to send. Its length is an `int`, as that of a buffer is. -/
structure IoVec where
  bufs : List UserData
  short : (bufs.map bufLen).sum < 2 ^ 31

/-- All the bytes of a vector. -/
def IoVec.whole (v : IoVec) : UserData where
  bytes := (v.bufs.map UserData.bytes).flatten
  short := by
    rw [List.length_flatten, List.map_map]
    exact v.short

/-- The vector is sent as all its bytes together: the result is the same, and what is sent. -/
def SendsAsOne {S E W : Type} (call : Call S E UserData (List W)) (v : IoVec) : Prop :=
  ∀ (env : ℕ → E) (s : S), (vectored call bufLen env v.bufs s).map (fun r => (r.ret, r.seen.flatten)) =
    (call false (env 0) v.whole s).map fun r => (r.ret, r.seen)

/-- `writev_s` and `sendmsg` are one `send` or `sendto`, in every state and whatever happens meanwhile. -/
def GatherLaw (l : Link) : SockType → IoVec → Prop
  | .stream, v => ∀ (net : Tcp.Net) (flags : MsgFlags), SendsAsOne (streamCall net flags) v
  | t, v => ∀ h : Host, h.link = l → ∀ a : TxArgs, SendsAsOne (plainCall h t a) v

/-- The lengths for which it is so. -/
def GatherOk (l : Link) : SockType → List ℕ → Prop
  | _, [] => False
  | _, [_] => True
  | .stream, lens => ∀ len ∈ lens, len = 0
  | .dgram, len :: _ => 65535 - 8 < len
  | .raw, _ :: lens => ∀ len ∈ lens, len = 0
  | .packet, len :: next :: lens =>
    len + (next :: lens).sum ≤ l.pktIpOfs ∨ (∀ n ∈ next :: lens, n = 0) ∨ l.size < len ∨
      len = l.size ∧ next ≤ l.pktIpOfs

/-! ## Vectors -/

section Vector

variable {v : IoVec} {data : UserData} {bufs : List UserData}

theorem tooLong_false {max : ℕ} {lens : List ℕ} (h : max + lens.sum < 2 ^ 31) : tooLong max lens = false := by
  induction lens generalizing max with
  | nil => rfl
  | cons len lens ih =>
    rw [List.sum_cons] at h
    unfold tooLong intMax
    rw [ih (by omega)]
    simp only [Bool.false_eq_true, or_false, decide_eq_false_iff_not]
    omega

/-- The length of a vector is never refused. -/
theorem vectored_eq {S E V : Type} (call : Call S E UserData V) (env : ℕ → E) (v : IoVec) (s : S) :
    vectored call bufLen env v.bufs s = loop call bufLen env 0 v.bufs s 0 := by
  unfold vectored
  rw [tooLong_false (by rw [Nat.zero_add]; exact v.short)]
  exact if_neg Bool.false_ne_true

theorem userData_ext {a b : UserData} (h : a.bytes = b.bytes) : a = b := by
  cases a
  cases b
  cases h
  rfl

theorem whole_bytes (v : IoVec) : v.whole.bytes = (v.bufs.map UserData.bytes).flatten := rfl

theorem length_whole (hv : v.bufs = data :: bufs) :
    v.whole.bytes.length = data.bytes.length + (bufs.map bufLen).sum := by
  rw [whole_bytes, hv, List.length_flatten, List.map_map]
  rfl

theorem lens_zero : (∀ len ∈ bufs.map bufLen, len = 0) ↔ ∀ b ∈ bufs, b.bytes = [] := by
  rw [List.forall_mem_map]
  refine forall₂_congr fun b _ => ?_
  exact List.length_eq_zero_iff

theorem rest_pos (h : ¬ ∀ b ∈ bufs, b.bytes = []) : 0 < (bufs.map bufLen).sum := by
  refine Nat.pos_of_ne_zero fun hzero => h ?_
  exact lens_zero.mp (List.sum_eq_zero_iff.mp hzero)

/-- Only the first element is not empty. -/
theorem whole_eq_head (hv : v.bufs = data :: bufs) (h : ∀ b ∈ bufs, b.bytes = []) : v.whole = data := by
  apply userData_ext
  have hrest : (bufs.map UserData.bytes).flatten = [] := by
    rw [List.flatten_eq_nil_iff]
    intro l hl
    obtain ⟨b, hb, rfl⟩ := List.mem_map.mp hl
    exact h b hb
  unfold IoVec.whole
  dsimp only
  rw [hv, List.map_cons, List.flatten_cons, hrest, List.append_nil]

/-- The first bytes are those of the first element. -/
theorem take_whole (hv : v.bufs = data :: bufs) {n : ℕ} (hn : n ≤ data.bytes.length) :
    v.whole.bytes.take n = data.bytes.take n := by
  rw [whole_bytes, hv, List.map_cons, List.flatten_cons, List.take_append_of_le_length hn]

/-- One element. -/
theorem sendsAsOne_single {S E W : Type} (call : Call S E UserData (List W)) (hv : v.bufs = [data]) :
    SendsAsOne call v := by
  intro env s
  rw [vectored_eq, hv, whole_eq_head hv (fun _ h => nomatch h), loop_single, Option.map_map]
  cases call false (env 0) data s with
  | none => rfl
  | some r => simp

end Vector

/-! ## Stream sockets -/

section Stream

variable {net : Tcp.Net} {flags : MsgFlags} {a e : SendArgs} {sk : SendSocket} {data : UserData} {v : IoVec}

/-- No data are never sent. -/
theorem streamTransmit_nil (hnil : a.data.bytes = []) : streamTransmit net a sk =
    (transmitReach net (a.wait :: a.waits) a sk).map fun r => (r.1, .error (r.2.getD .unchanged)) := by
  unfold streamTransmit transmitBegin
  cases hreach : transmitReach net (a.wait :: a.waits) a sk with
  | none => rfl
  | some r =>
    obtain ⟨sk', err⟩ := r
    cases err with
    | none => exact absurd hnil (transmitReach_some hreach rfl)
    | some err => rfl

theorem streamCall_nil (hnil : data.bytes = []) (more : Bool) :
    streamCall net flags more e data sk = streamCall net flags false e data sk ∧
      ∀ r ∈ streamCall net flags more e data sk, r.ret = none := by
  unfold streamCall
  rw [streamTransmit_nil hnil, streamTransmit_nil hnil, Option.map_map, Option.map_map]
  refine ⟨rfl, fun r hr => ?_⟩
  obtain ⟨q, -, rfl⟩ := Option.map_eq_some_iff.mp hr
  rfl

/-- A connection with a large buffer, nothing written. -/
def roomyConn : Tcp.Conn := (Tcp.establishedConn []).upd fun s => { s with tx.maxTxData := 0x80000001 }

/-- A call while an ICMP error arrives, or nothing. -/
def quietArgs (err : Option Errno) (data : UserData) (more : Bool) : SendArgs where
  data := data
  flags := { more := more }
  wait := ⟨⟨{}, []⟩, {}⟩
  tick := ⟨⟨{}, []⟩, { soError := err }⟩
  first := ⟨{}, []⟩

/-- A blocking socket with the connection `c` and a pending error, or none. -/
def quietSocket (c : Tcp.Conn) (err : Option Errno) : SendSocket :=
  { connectedSocket c with soState := { isConnected := true }, soError := err }

theorem transmitEntry_quiet (err : Option Errno) (more : Bool) :
    transmitEntry {} (quietArgs err data more) (quietSocket roomyConn none) = quietSocket roomyConn err := by
  cases err <;> rfl

/-- The connection when `sock_write` is called. -/
def heldConn (more : Bool) : Tcp.Conn := roomyConn.upd fun s => { s with localMode := more }

/-- The quiet call gets to `sock_write`. -/
theorem transmitBegin_quiet (err : Option Errno) (more : Bool) (hsome : data.bytes ≠ []) (waits : List SockTick) :
    transmitBegin {} waits (quietArgs err data more) (quietSocket roomyConn none) =
      some (quietSocket (heldConn more) err, .ok data.bytes) := by
  have hreach : transmitReach {} waits (quietArgs err data more) (quietSocket roomyConn none) =
      some (quietSocket roomyConn none, none) := by
    have hchecks : transmitChecks (quietArgs err data more) (quietSocket roomyConn none) =
        if data.bytes = [] then (quietSocket roomyConn none, some (.other .einval))
        else (quietSocket roomyConn none, none) := rfl
    rw [if_neg hsome] at hchecks
    exact congrArg some hchecks
  have hadmit : transmitAdmit (quietArgs err data more) (quietSocket roomyConn err) =
      (holdPush (quietArgs err data more) (quietSocket roomyConn err) false, .ok data.bytes) := rfl
  unfold transmitBegin
  rw [hreach, Option.map_some]
  dsimp only
  rw [transmitEntry_quiet, hadmit]
  cases more <;> rfl

/-- The quiet call takes all its bytes. -/
theorem streamTransmit_quiet (err : Option Errno) (more : Bool) (hsome : data.bytes ≠ []) :
    streamTransmit {} (quietArgs err data more) (quietSocket roomyConn none) =
      some (quietSocket (Tcp.clearLocal (Tcp.writeTurn {} (heldConn more) data.bytes).1) err,
        .ok data.bytes.length) := by
  have hroom : (Tcp.writeRoom (heldConn more).s).toNat = 2 ^ 31 := by
    cases more <;> decide +kernel
  have hshort := data.short
  have hpos : 0 < data.bytes.length := List.length_pos_iff.mpr hsome
  obtain ⟨-, htakes⟩ := @writeTurn_takes {} (heldConn more) data.bytes rfl (by omega) hshort hsome
  have hall : (Tcp.writeTurn {} (heldConn more) data.bytes).2 = data.bytes.length := by
    refine htakes.mpr ?_
    have hok : (Tcp.pushUnlessLocal (heldConn more)).txOk = [] := by cases more <;> rfl
    unfold Tcp.SendsAll
    rw [hok, List.take_nil]
    exact List.not_mem_nil
  unfold streamTransmit
  rw [transmitBegin_quiet err more hsome]
  dsimp only
  rw [show Tcp.sockWrite {} ((quietArgs err data more).first :: (quietArgs err data more).rest)
    (quietSocket (heldConn more) err).tcp data.bytes = _ from sockWriteLoop_takes rfl hall, Option.map_some]
  have hend : ∀ (c : Tcp.Conn) (queued : ℕ), transmitEnd (quietArgs err data more) (quietSocket (heldConn more) err)
      ⟨c, data.bytes.length, queued⟩ = (quietSocket c err, .ok (data.bytes.length : ℤ)) := by
    intro c queued
    have hneg : ¬ (data.bytes.length : ℤ) ≤ 0 := by omega
    unfold transmitEnd
    dsimp only
    rw [if_neg hneg]
    rfl
  rw [hend]
  rfl

/-- The `tcp_write` of the quiet call. -/
theorem writeTurn_quiet (more : Bool) (hsome : data.bytes ≠ []) : Tcp.writeTurn {} (heldConn more) data.bytes =
    Tcp.writeTake {} (Tcp.pushUnlessLocal (heldConn more)) data.bytes 0x80000000 false := by
  have hshort := data.short
  have hstate : ¬ (Tcp.pushUnlessLocal (heldConn more)).s.state ≠ .estab := by cases more <;> decide +kernel
  have hroom : Tcp.writeRoom (Tcp.pushUnlessLocal (heldConn more)).s = 0x80000000 := by
    cases more <;> decide +kernel
  have hfits : ¬ (0x80000000 : Dword).toNat < data.bytes.length := by
    have : (0x80000000 : Dword).toNat = 2 ^ 31 := by decide
    omega
  unfold Tcp.writeTurn Tcp.tcpWrite
  rw [if_neg hstate]
  dsimp only
  rw [hroom, if_neg hfits, if_neg hsome]

/-- With `MSG_MORE` the bytes wait. -/
theorem quiet_waits (hsome : data.bytes ≠ []) : (Tcp.writeTurn {} (heldConn true) data.bytes).1.calls = [] := by
  have hshort := data.short
  have hlen : BitVec.ofNat 32 data.bytes.length < (0x80000000 : Dword) := by
    have : (0x80000000 : Dword).toNat = 2 ^ 31 := by decide
    rw [BitVec.lt_def, BitVec.toNat_ofNat, Nat.mod_eq_of_lt (by omega)]
    omega
  rw [writeTurn_quiet true hsome]
  unfold Tcp.writeTake
  dsimp only
  rw [if_pos ⟨rfl, hlen⟩]
  rfl

/-- Without it a segment goes out. -/
theorem quiet_sends (hsome : data.bytes ≠ []) :
    (Tcp.writeTurn {} (heldConn false) data.bytes).1.calls.flatMap Tcp.SendCall.segs ≠ [] := by
  rw [writeTurn_quiet false hsome]
  unfold Tcp.writeTake
  dsimp only
  have hlocal : ¬ ((Tcp.appendTx {} (Tcp.pushUnlessLocal (heldConn false)).s data.bytes).localMode = true ∧
      BitVec.ofNat 32 data.bytes.length < 0x80000000) := by
    have hoff : (Tcp.pushUnlessLocal (heldConn false)).s.localMode = false := by decide +kernel
    exact fun h => Bool.false_ne_true (hoff.symm.trans h.1)
  have hnow : Tcp.writeNow ({} : Tcp.Env).cfg (Tcp.appendTx {} (Tcp.pushUnlessLocal (heldConn false)).s data.bytes)
      (BitVec.ofNat 32 data.bytes.length) = true := by
    refine decide_eq_true (.inr (.inl ?_))
    have hempty : (Tcp.pushUnlessLocal (heldConn false)).s.tx.txDatalen = 0 := by decide +kernel
    unfold Tcp.appendTx
    dsimp only
    rw [hempty]
    exact BitVec.zero_add _
  rw [if_neg hlocal, if_pos hnow, Tcp.Conn.upd_calls]
  obtain ⟨rest, hcalls⟩ := @Tcp.tcpSend_first_call {} { Tcp.pushUnlessLocal (heldConn false) with
    s := Tcp.appendTx {} (Tcp.pushUnlessLocal (heldConn false)).s data.bytes
    accepted := (Tcp.pushUnlessLocal (heldConn false)).accepted ++ data.bytes }
  have hcw : (Tcp.pushUnlessLocal (heldConn false)).s.rtt.cwindow ≠ 0 := by decide +kernel
  obtain ⟨seg, segs, hsegs, -⟩ := @Tcp.sendTurns_head {} { Tcp.pushUnlessLocal (heldConn false) with
    s := Tcp.appendTx {} (Tcp.pushUnlessLocal (heldConn false)).s data.bytes
    accepted := (Tcp.pushUnlessLocal (heldConn false)).accepted ++ data.bytes } hcw
  rw [hcalls, List.flatMap_append, List.flatMap_cons, hsegs]
  simp

/-- What a quiet call looks like in the loop. -/
theorem streamCall_quiet (err : Option Errno) (more : Bool) (b : UserData) (hsome : data.bytes ≠ []) :
    streamCall {} {} more (quietArgs err b false) data (quietSocket roomyConn none) =
      some ⟨quietSocket (Tcp.clearLocal (Tcp.writeTurn {} (heldConn more) data.bytes).1) err,
        some data.bytes.length, (Tcp.writeTurn {} (heldConn more) data.bytes).1.calls.flatMap Tcp.SendCall.segs⟩ := by
  have hsent := streamTransmit_quiet err more hsome
  unfold streamCall
  change (streamTransmit {} (quietArgs err data more) (quietSocket roomyConn none)).map _ = _
  rw [hsent]
  rfl

/-- A call without data, or with a pending error. -/
theorem streamCall_error {c : Tcp.Conn} {err : Option Errno} (h : err ≠ none ∨ data.bytes = []) (err' : Option Errno)
    (more : Bool) (b : UserData) :
    ∃ s', streamCall {} {} more (quietArgs err' b false) data (quietSocket c err) = some ⟨s', none, []⟩ := by
  have hdrop : (c.calls.drop c.calls.length).flatMap Tcp.SendCall.segs = [] := by
    rw [List.drop_length]
    rfl
  cases err with
  | some err =>
    have hfails : streamTransmit {} (quietArgs err' data more) (quietSocket c (some err)) =
        some (quietSocket c none, .error (.other err)) := rfl
    refine ⟨quietSocket c none, ?_⟩
    unfold streamCall
    change (streamTransmit {} (quietArgs err' data more) (quietSocket c (some err))).map _ = _
    rw [hfails]
    exact congrArg (fun v => some (Ended.mk (quietSocket c none) none v)) hdrop
  | none =>
    have hnil : data.bytes = [] := h.resolve_left (not_not.mpr rfl)
    have hreach : transmitReach {} [(quietArgs err' data more).wait] (quietArgs err' data more) (quietSocket c none) =
        some (if data.bytes = [] then (quietSocket c none, some (.other .einval)) else (quietSocket c none, none)) := rfl
    rw [if_pos hnil] at hreach
    have hfails := @streamTransmit_nil {} (quietArgs err' data more) (quietSocket c none) hnil
    refine ⟨quietSocket c none, ?_⟩
    unfold streamCall
    change (streamTransmit {} (quietArgs err' data more) (quietSocket c none)).map _ = _
    rw [hfails]
    change (Option.map _ (transmitReach {} [(quietArgs err' data more).wait] (quietArgs err' data more)
      (quietSocket c none))).map _ = _
    rw [hreach]
    exact congrArg (fun v => some (Ended.mk (quietSocket c none) none v)) hdrop

/-- **Stream sockets**: the second element may meet an error, and `MSG_MORE` holds the first back. -/
theorem gather_stream (l : Link) (v : IoVec) : GatherLaw l .stream v ↔ GatherOk l .stream (v.bufs.map bufLen) := by
  match hv : v.bufs with
  | [] =>
    refine iff_of_false (fun h => ?_) fun h => h
    have heq := h {} {} (fun _ => quietArgs none v.whole false) (quietSocket roomyConn none)
    have hnil : v.whole.bytes = [] := by
      rw [whole_bytes, hv]
      rfl
    obtain ⟨s', hs'⟩ := @streamCall_error v.whole roomyConn none (.inr hnil) none false v.whole
    rw [vectored_eq, hv, hs'] at heq
    exact nomatch (congrArg Prod.fst (Option.some.inj heq) :)
  | [b] => exact iff_of_true (fun net flags => sendsAsOne_single _ hv) trivial
  | b :: c :: bufs =>
    by_cases hall : ∀ x ∈ b :: c :: bufs, x.bytes = []
    · refine iff_of_true (fun net flags env s => ?_) (lens_zero.mpr hall)
      have hb := hall b List.mem_cons_self
      obtain ⟨hsame, hfails⟩ := @streamCall_nil net flags (env 0) s b hb true
      rw [vectored_eq, hv, whole_eq_head hv fun x hx => hall x (List.mem_cons_of_mem b hx), ← hsame]
      cases hcall : streamCall net flags true (env 0) b s with
      | none =>
        rw [loop_waits hcall]
        rfl
      | some r =>
        obtain ⟨s', ret, seen⟩ := r
        obtain rfl : ret = none := hfails _ hcall
        rw [loop_fails hcall]
        simp
    · refine iff_of_false (fun h => ?_) fun h => hall (lens_zero.mp h)
      have hlen := length_whole hv
      by_cases hb : b.bytes = []
      · -- the first element is refused
        have heq := h {} {} (fun _ => quietArgs none b false) (quietSocket roomyConn none)
        have hrest : v.whole.bytes ≠ [] := by
          have hpos := rest_pos fun h => hall (List.forall_mem_cons.mpr ⟨hb, h⟩)
          exact List.ne_nil_of_length_pos (by omega)
        obtain ⟨s', hs'⟩ := @streamCall_error b roomyConn none (.inr hb) none true b
        rw [vectored_eq, hv, loop_fails hs', streamCall_quiet none false b hrest] at heq
        exact nomatch (congrArg Prod.fst (Option.some.inj heq) :)
      · by_cases hrest : ∀ x ∈ c :: bufs, x.bytes = []
        · -- `MSG_MORE` for the first element, and nothing comes after it
          have heq := h {} {} (fun _ => quietArgs none b false) (quietSocket roomyConn none)
          have hfirst := streamCall_quiet none true b hb
          obtain ⟨s', hs'⟩ := @streamCall_error c (Tcp.clearLocal (Tcp.writeTurn {} (heldConn true) b.bytes).1) none
            (.inr (hrest c List.mem_cons_self)) none (!bufs.isEmpty) b
          rw [quiet_waits hb] at hfirst
          rw [vectored_eq, hv, loop_second_fails hfirst hs', whole_eq_head hv hrest, streamCall_quiet none false b hb]
            at heq
          exact quiet_sends hb (congrArg Prod.snd (Option.some.inj heq)).symm
        · -- the second element meets the error that the first one left
          have heq := h {} {} (fun _ => quietArgs (some .ehostunreach) b false) (quietSocket roomyConn none)
          have hfirst := streamCall_quiet (some .ehostunreach) true b hb
          obtain ⟨s', hs'⟩ := @streamCall_error c (Tcp.clearLocal (Tcp.writeTurn {} (heldConn true) b.bytes).1)
            (some .ehostunreach) (.inl (Option.some_ne_none _)) (some .ehostunreach) (!bufs.isEmpty) b
          have hpos := rest_pos hrest
          have hb0 : bufLen b ≠ 0 := fun h0 => hb (List.length_eq_zero_iff.mp h0)
          rw [vectored_eq, hv, loop_second_fails hfirst hs', if_neg hb0,
            streamCall_quiet (some .ehostunreach) false b (List.ne_nil_of_length_pos (by omega))] at heq
          have hret := Option.some.inj (congrArg Prod.fst (Option.some.inj heq) :)
          change b.bytes.length = v.whole.bytes.length at hret
          omega

end Stream

/-! ## Datagram sockets -/

section Dgram

variable {h : Host} {t : SockType} {a : TxArgs} {e : TxEnv} {sk : DgramSocket} {data : UserData} {v : IoVec}

/-- `MSG_MORE` does nothing on these sockets. -/
theorem plainCall_eq (more : Bool) : plainCall h t a more e data sk =
    some ⟨(transmitTo h t a e data.bytes sk).sk, (transmitTo h t a e data.bytes sk).ret.toOption,
      (transmitTo h t a e data.bytes sk).sent⟩ := rfl

/-- Nothing is sent of a call that fails before the transmitter. -/
theorem transmitTo_setup {sk' : DgramSocket} {err : Errno} {bytes : List Byte}
    (hsetup : transmitSetup h t a e bytes sk = (sk', some err)) :
    transmitTo h t a e bytes sk = ⟨sk', .error (.other err), []⟩ := by
  unfold transmitTo
  rw [hsetup]

/-- No datagram is larger than `USHRT_MAX - sizeof(udp_Header)`. -/
theorem udpTransmit_long {bytes : List Byte} (hlong : 65535 - 8 < bytes.length) :
    ∃ sk' err, udpTransmit h e sk bytes = ⟨sk', .error err, []⟩ := by
  unfold udpTransmit
  dsimp only
  have hsome : bytes ≠ [] := List.ne_nil_of_length_pos (by omega)
  rw [if_neg hsome]
  by_cases halive : e.alive = false
  · exact ⟨_, _, if_pos halive⟩
  rw [if_neg halive]
  split_ifs <;> exact ⟨_, _, rfl⟩

theorem plainCall_long (hlong : 65535 - 8 < data.bytes.length) (more : Bool) :
    ∃ sk', plainCall h .dgram a more e data sk = some ⟨sk', none, []⟩ := by
  have hfails : ∃ sk' err, transmitTo h .dgram a e data.bytes sk = ⟨sk', .error err, []⟩ := by
    cases hsetup : transmitSetup h .dgram a e data.bytes sk with
    | mk sk' err =>
      cases err with
      | some err => exact ⟨sk', _, transmitTo_setup hsetup⟩
      | none =>
        obtain ⟨sk'', err, hudp⟩ := @udpTransmit_long h e sk' data.bytes hlong
        refine ⟨sk'', err, ?_⟩
        unfold transmitTo
        rw [hsetup]
        dsimp only
        rw [hudp]
  obtain ⟨sk', err, hfails⟩ := hfails
  refine ⟨sk', ?_⟩
  rw [plainCall_eq, hfails]
  rfl

/-- The address of a neighbour. -/
def peerAddr : SockAddr := ⟨.ip6 1, 7⟩

/-- A connected IPv6 socket with a pending error, or none. -/
def peerSocket (err : Option Errno) : DgramSocket where
  isIp6 := true
  localAddr := some ⟨.ip6 2, 8⟩
  remoteAddr := some peerAddr
  soState := { isConnected := true }
  soError := err
  udp := { myport := 8, hisport := 7, isIp6 := true }

/-- A host on the link `l`. -/
def etherHost (l : Link) : Host where
  link := l
  mtu := ⟨1500, by decide⟩

/-- A call while an ICMP error arrives, or nothing. -/
def quietEnv (err : Option Errno) : TxEnv := { callbacks := { soError := err } }

/-- When every output succeeds, all is sent. -/
theorem writeLoop_all (m : Udp.Mtu) (g : Udp.Globals) (s : Udp.UdpSocket) (len : ℤ) (i : ℕ) (bytes : List Byte) :
    (Udp.writeLoop m {} g s len i bytes).2 = len ∧ (Udp.writeLoop m {} g s len i bytes).1 ≠ [] := by
  induction i, bytes using Udp.writeLoop.induct m {} g s len with
  | case1 i bytes hsent => exact absurd hsent Bool.noConfusion
  | case2 i bytes hsent hlast =>
    unfold Udp.writeLoop
    rw [if_neg hsent, dif_pos hlast]
    exact ⟨rfl, List.cons_ne_nil _ _⟩
  | case3 i bytes hsent hmore hopened => exact absurd hopened Bool.noConfusion
  | case4 i bytes hsent hmore hopened ih =>
    unfold Udp.writeLoop
    rw [if_neg hsent, dif_neg hmore, if_neg hopened]
    exact ⟨ih.1, List.cons_ne_nil _ _⟩

/-- The probe for no data. -/
def probe : Sent :=
  .packet { tos := 0, len := 0, id := 0, ttl := 128, proto := Ip.udpProto, src := .ip6 0, dst := .ip6 1, opts := [] } []

theorem udpTransmit_probe (l : Link) (err : Option Errno) :
    udpTransmit (etherHost l) (quietEnv err) (peerSocket none) [] = ⟨peerSocket err, .ok 0, [probe]⟩ := by
  cases err <;> rfl

/-- The datagrams of a quiet call. -/
def peerDatagrams (bytes : List Byte) : List (List Byte) × ℤ :=
  Udp.sockWrite ⟨1500, by decide⟩ {} { in6addrMyIp := ip6Bytes 0 } (peerSocket none).udp bytes

theorem udpTransmit_quiet (l : Link) (err : Option Errno) {bytes : List Byte} (hsome : bytes ≠ [])
    (hlen : bytes.length ≤ 65535 - 8) : udpTransmit (etherHost l) (quietEnv err) (peerSocket none) bytes =
      ⟨peerSocket err, .ok bytes.length, (peerDatagrams bytes).1.map .datagram⟩ := by
  have hnotify : (peerSocket none).notify (quietEnv err).callbacks = peerSocket err := by cases err <;> rfl
  have hpos : 0 < bytes.length := List.length_pos_iff.mpr hsome
  have hall : (peerDatagrams bytes).2 = bytes.length := (writeLoop_all _ _ _ _ 0 bytes).1
  have hsend : udpSend (etherHost l) (quietEnv err) (peerSocket err) bytes =
      ⟨peerSocket err, .ok bytes.length, (peerDatagrams bytes).1.map .datagram⟩ := by
    have hneg : ¬ (peerDatagrams bytes).2 ≤ 0 := by omega
    unfold udpSend
    change (if (peerDatagrams bytes).2 ≤ 0 then _ else _) = _
    rw [if_neg hneg]
    change TxEnd.mk (peerSocket err).patched (.ok (peerDatagrams bytes).2.toNat) _ = _
    rw [hall]
    rfl
  unfold udpTransmit
  rw [hnotify]
  dsimp only
  rw [if_neg hsome, if_neg (not_lt.mpr hlen), hsend]
  rfl

/-- The quiet call sends all its bytes. -/
theorem plainCall_peer (l : Link) (err : Option Errno) (more : Bool) (hlen : data.bytes.length ≤ 65535 - 8) :
    ∃ seen, seen ≠ [] ∧ plainCall (etherHost l) .dgram {} more (quietEnv err) data (peerSocket none) =
      some ⟨peerSocket err, some (bufLen data), seen⟩ := by
  have hsetup : transmitSetup (etherHost l) .dgram {} (quietEnv err) data.bytes (peerSocket none) =
      (peerSocket none, none) := rfl
  have hsend : ∃ seen, seen ≠ [] ∧ udpTransmit (etherHost l) (quietEnv err) (peerSocket none) data.bytes =
      ⟨peerSocket err, .ok (bufLen data), seen⟩ := by
    by_cases hnil : data.bytes = []
    · refine ⟨[probe], List.cons_ne_nil _ _, ?_⟩
      rw [bufLen, hnil]
      exact udpTransmit_probe l err
    · refine ⟨_, fun hseen => ?_, udpTransmit_quiet l err hnil hlen⟩
      exact (writeLoop_all _ _ _ _ 0 data.bytes).2 (List.map_eq_nil_iff.mp hseen)
  obtain ⟨seen, hseen, hudp⟩ := hsend
  refine ⟨seen, hseen, ?_⟩
  rw [plainCall_eq]
  unfold transmitTo
  rw [hsetup]
  dsimp only
  rw [hudp]
  rfl

/-- With a pending error the call fails. -/
theorem plainCall_pending (l : Link) (err : Errno) (e : TxEnv) (more : Bool) :
    plainCall (etherHost l) .dgram {} more e data (peerSocket (some err)) = some ⟨peerSocket none, none, []⟩ := rfl

/-- **Datagram sockets**: every element is a datagram of its own, unless the first one is too long for one. -/
theorem gather_dgram (l : Link) (v : IoVec) : GatherLaw l .dgram v ↔ GatherOk l .dgram (v.bufs.map bufLen) := by
  have hpeer : GatherLaw l .dgram v → SendsAsOne (plainCall (etherHost l) .dgram {}) v := fun h => h _ rfl {}
  match hv : v.bufs with
  | [] =>
    refine iff_of_false (fun h => ?_) fun h => h
    have heq := hpeer h (fun _ => quietEnv none) (peerSocket none)
    have hshort : v.whole.bytes.length ≤ 65535 - 8 := by
      rw [whole_bytes, hv]
      exact Nat.zero_le _
    obtain ⟨seen, hseen, hplain⟩ := plainCall_peer l none false hshort
    rw [vectored_eq, hv, hplain] at heq
    exact hseen (congrArg Prod.snd (Option.some.inj heq)).symm
  | [b] => exact iff_of_true (fun _ _ _ => sendsAsOne_single _ hv) trivial
  | b :: c :: bufs =>
    have hlen := length_whole hv
    by_cases hlong : 65535 - 8 < b.bytes.length
    · -- neither the first element nor all together
      refine iff_of_true (fun h hl a env sk => ?_) hlong
      obtain ⟨sk₁, hfirst⟩ := @plainCall_long h a (env 0) sk b hlong true
      obtain ⟨sk₂, hwhole⟩ := @plainCall_long h a (env 0) sk v.whole (by omega) false
      rw [vectored_eq, hv, loop_fails hfirst, hwhole]
      rfl
    · refine iff_of_false (fun h => ?_) hlong
      by_cases htotal : 65535 - 8 < v.whole.bytes.length
      · -- only all together are too long
        have heq := hpeer h (fun _ => quietEnv none) (peerSocket none)
        obtain ⟨sk₂, hwhole⟩ := @plainCall_long (etherHost l) {} (quietEnv none) (peerSocket none) v.whole htotal false
        obtain ⟨seen, hseen, hfirst⟩ := plainCall_peer l none true (not_lt.mp hlong)
        rw [vectored_eq, hv, hwhole] at heq
        obtain ⟨q, hq, hqs⟩ := Option.map_eq_some_iff.mp heq
        obtain ⟨r, tail, hr, hrs⟩ := loop_seen hq
        cases hr.symm.trans hfirst
        have hnil := congrArg Prod.snd hqs
        rw [hrs] at hnil
        exact hseen (List.append_eq_nil_iff.mp hnil).1
      · obtain ⟨seen, hseen, hwhole⟩ := plainCall_peer l none false (not_lt.mp htotal)
        by_cases hrest : ∀ x ∈ c :: bufs, x.bytes = []
        · -- a probe for an element without data
          have heq := hpeer h (fun _ => quietEnv none) (peerSocket none)
          have hfirst : plainCall (etherHost l) .dgram {} true (quietEnv none) b (peerSocket none) =
              some ⟨peerSocket none, some (bufLen b), seen⟩ := by
            rw [whole_eq_head hv hrest] at hwhole
            exact hwhole
          have hshort : c.bytes.length ≤ 65535 - 8 := by
            rw [hrest c List.mem_cons_self]
            exact Nat.zero_le _
          obtain ⟨seen₂, hseen₂, hsecond⟩ := plainCall_peer l none (!bufs.isEmpty) hshort
          rw [vectored_eq, hv, hwhole, loop_full hfirst, Option.map_map] at heq
          obtain ⟨q, hq, hqs⟩ := Option.map_eq_some_iff.mp heq
          obtain ⟨r, tail, hr, hrs⟩ := loop_seen hq
          cases hr.symm.trans hsecond
          have hmore : seen ++ q.seen.flatten = seen := congrArg Prod.snd hqs
          rw [hrs, List.append_right_eq_self] at hmore
          exact hseen₂ (List.append_eq_nil_iff.mp hmore).1
        · -- the second element meets the error that the first one left
          have heq := hpeer h (fun _ => quietEnv (some .ehostunreach)) (peerSocket none)
          have hpos := rest_pos hrest
          obtain ⟨seen₁, -, hfirst⟩ := plainCall_peer l (some .ehostunreach) true (not_lt.mp hlong)
          obtain ⟨seen₂, -, hwhole⟩ := plainCall_peer l (some .ehostunreach) false (not_lt.mp htotal)
          have hsecond := @plainCall_pending c l .ehostunreach (quietEnv (some .ehostunreach)) (!bufs.isEmpty)
          rw [vectored_eq, hv, loop_second_fails hfirst hsecond, hwhole] at heq
          have hret := congrArg Prod.fst (Option.some.inj heq)
          dsimp only at hret
          split_ifs at hret with hb
          have hsame := Option.some.inj hret
          change b.bytes.length = v.whole.bytes.length at hsame
          omega

end Dgram

/-! ## Raw sockets -/

section Raw

variable {h : Host} {t : SockType} {a : TxArgs} {e : TxEnv} {sk : DgramSocket} {data : UserData} {v : IoVec}

/-- No data are never sent, but on a datagram socket. -/
theorem plainCall_nil (ht : t ≠ .dgram) (hnil : data.bytes = []) (more : Bool) :
    ∃ sk', plainCall h t a more e data sk = some ⟨sk', none, []⟩ := by
  have hfails : ∃ sk' err, transmitSetup h t a e data.bytes sk = (sk', some err) := by
    unfold transmitSetup
    dsimp only
    split
    · exact ⟨_, _, rfl⟩
    · split
      · exact ⟨_, _, rfl⟩
      · exact ⟨_, _, if_pos ⟨ht, hnil⟩⟩
  obtain ⟨sk', err, hfails⟩ := hfails
  refine ⟨sk', ?_⟩
  rw [plainCall_eq, transmitTo_setup hfails]
  rfl

/-- Only the first element has data. -/
theorem plain_head {b : UserData} {bufs : List UserData} (ht : t ≠ .dgram) (hv : v.bufs = b :: bufs)
    (hrest : ∀ x ∈ bufs, x.bytes = []) : SendsAsOne (plainCall h t a) v := by
  intro env sk
  rw [vectored_eq, hv, whole_eq_head hv hrest]
  cases bufs with
  | nil =>
    rw [loop_single]
    simp [plainCall_eq]
  | cons c bufs =>
    cases hfirst : plainCall h t a false (env 0) b sk with
    | none => exact nomatch hfirst
    | some r =>
      obtain ⟨sk', ret, seen⟩ := r
      have hcall : plainCall h t a true (env 0) b sk = some ⟨sk', ret, seen⟩ := hfirst
      by_cases hfull : ret = some (bufLen b)
      · subst hfull
        obtain ⟨sk'', hsecond⟩ := @plainCall_nil h t a (env 1) sk' c ht (hrest c List.mem_cons_self) (!bufs.isEmpty)
        have hb : bufLen b ≠ 0 := by
          intro hzero
          obtain ⟨_, hnil⟩ := @plainCall_nil h t a (env 0) sk b ht (List.length_eq_zero_iff.mp hzero) false
          cases hnil.symm.trans hfirst
        rw [loop_second_fails hcall hsecond, if_neg hb]
        simp
      · rw [loop_stops hcall hfull]
        simp

/-- A connected IPv4 socket for ICMP. -/
def pingSocket : DgramSocket where
  localAddr := some ⟨.ip4 1, 0⟩
  remoteAddr := some ⟨.ip4 2, 0⟩
  soState := { isConnected := true }
  udp := { myport := 0 }
  soProto := Ip.icmpProto

/-- When every fragment is sent, all is. -/
theorem sendLoop_all {o : Ip.Out} (hok : ∀ i, o.ethOk i = true) (proto : Byte) (hdr buf : List Byte) (num n : ℕ)
    (fragOfs len : ℕ) (hlen : n * o.ipMax ≤ len) :
    (Ip.sendLoop o proto hdr buf num (n + 1) fragOfs len).2 = len := by
  induction n generalizing fragOfs len with
  | zero =>
    unfold Ip.sendLoop
    dsimp only
    rw [if_pos (hok _), if_pos rfl]
    exact Int.zero_add _
  | succ n ih =>
    rw [Nat.succ_mul] at hlen
    have hrest := ih (fragOfs + o.ipMax) (len - o.ipMax) (by omega)
    unfold Ip.sendLoop
    dsimp only
    rw [if_pos (hok _)]
    simp only [if_neg (Nat.succ_ne_zero n)]
    rw [hrest, if_neg (by omega)]
    omega

/-- The fragments of the bytes are sent. -/
theorem sendFragments_all (l : Link) (dest : Dword) {bytes : List Byte} (hsome : bytes ≠ []) :
    ∃ seen, sendFragments (etherHost l) {} pingSocket Ip.icmpProto dest bytes = ⟨pingSocket, .ok bytes.length, seen⟩ := by
  have hpos : 0 < bytes.length := List.length_pos_iff.mpr hsome
  let o := fragOut (etherHost l) {} dest
  have hmax : o.ipMax = 1480 := rfl
  obtain ⟨n, hnum, hn⟩ : ∃ n, o.numFrags bytes.length = n + 1 ∧ n * o.ipMax ≤ bytes.length := by
    refine ⟨o.numFrags bytes.length - 1, ?_, ?_⟩ <;>
    · unfold Ip.Out.numFrags
      rw [hmax]
      split <;> omega
  have hall : (Ip.ip4SendFragments o pingSocket.fragSock Ip.icmpProto bytes).2 = bytes.length := by
    have hloop := @sendLoop_all o (fun _ => rfl) Ip.icmpProto [] bytes (n + 1) n 0 bytes.length hn
    rw [← hloop, ← hnum]
    rfl
  refine ⟨(Ip.ip4SendFragments o pingSocket.fragSock Ip.icmpProto bytes).1.map .fragment, ?_⟩
  unfold sendFragments
  dsimp only
  rw [hall, if_neg (by omega)]
  rfl

/-- A call sends all its bytes. -/
theorem plainCall_ping (l : Link) (hsome : data.bytes ≠ []) (more : Bool) :
    ∃ seen, plainCall (etherHost l) .raw {} more {} data pingSocket = some ⟨pingSocket, some (bufLen data), seen⟩ := by
  have hsetup : transmitSetup (etherHost l) .raw {} {} data.bytes pingSocket = (pingSocket, none) := by
    have heq : transmitSetup (etherHost l) .raw {} {} data.bytes pingSocket =
        if SockType.raw ≠ .dgram ∧ data.bytes = [] then (pingSocket, some .einval) else (pingSocket, none) := rfl
    rw [heq, if_neg fun h => hsome h.2]
  have hsend : ∃ seen, rawTransmit (etherHost l) {} pingSocket (some data.bytes) =
      ⟨pingSocket, .ok data.bytes.length, seen⟩ := by
    by_cases hlong : 1500 + 20 < data.bytes.length + 20 + 0
    · obtain ⟨seen, hfrags⟩ := @sendFragments_all l 2 data.bytes hsome
      refine ⟨seen, ?_⟩
      rw [← hfrags]
      exact if_pos hlong
    · exact ⟨_, if_neg hlong⟩
  obtain ⟨seen, hraw⟩ := hsend
  refine ⟨seen, ?_⟩
  rw [plainCall_eq]
  unfold transmitTo
  rw [hsetup]
  dsimp only
  rw [hraw]
  rfl

/-- The host is not found. -/
theorem plainCall_unreached (l : Link) (more : Bool) :
    ∃ sk', plainCall (etherHost l) .raw {} more { resolved := false } data pingSocket = some ⟨sk', none, []⟩ := by
  by_cases hnil : data.bytes = []
  · exact @plainCall_nil (etherHost l) .raw {} _ pingSocket data (fun h => nomatch h) hnil more
  · refine ⟨pingSocket, ?_⟩
    have hsetup : transmitSetup (etherHost l) .raw {} { resolved := false } data.bytes pingSocket =
        if SockType.raw ≠ .dgram ∧ data.bytes = [] then (pingSocket, some .einval) else (pingSocket, none) := rfl
    rw [if_neg fun h => hnil h.2] at hsetup
    rw [plainCall_eq]
    unfold transmitTo
    rw [hsetup]
    rfl

/-- **Raw sockets**: every element is a packet of its own, and one without data is an error. -/
theorem gather_raw (l : Link) (v : IoVec) : GatherLaw l .raw v ↔ GatherOk l .raw (v.bufs.map bufLen) := by
  have hping : GatherLaw l .raw v → SendsAsOne (plainCall (etherHost l) .raw {}) v := fun h => h _ rfl {}
  match hv : v.bufs with
  | [] =>
    refine iff_of_false (fun h => ?_) fun h => h
    have heq := hping h (fun _ => {}) pingSocket
    have hnil : v.whole.bytes = [] := by
      rw [whole_bytes, hv]
      rfl
    obtain ⟨sk', hwhole⟩ := @plainCall_nil (etherHost l) .raw {} {} pingSocket v.whole (fun h => nomatch h) hnil false
    rw [vectored_eq, hv, hwhole] at heq
    exact nomatch (congrArg Prod.fst (Option.some.inj heq) :)
  | [b] => exact iff_of_true (fun _ _ _ => sendsAsOne_single _ hv) trivial
  | b :: c :: bufs =>
    have hlen := length_whole hv
    by_cases hrest : ∀ x ∈ c :: bufs, x.bytes = []
    · exact iff_of_true (fun h hl a => plain_head (fun h => nomatch h) hv hrest) (lens_zero.mpr hrest)
    · refine iff_of_false (fun h => ?_) fun h => hrest (lens_zero.mp h)
      have hpos := rest_pos hrest
      -- the host is not found for the second element
      have heq := hping h (fun i => if i = 0 then {} else { resolved := false }) pingSocket
      obtain ⟨seen, hwhole⟩ := @plainCall_ping v.whole l (List.ne_nil_of_length_pos (by omega)) false
      rw [vectored_eq, hv, if_pos rfl, hwhole] at heq
      by_cases hb : b.bytes = []
      · obtain ⟨sk', hfirst⟩ := @plainCall_nil (etherHost l) .raw {} {} pingSocket b (fun h => nomatch h) hb true
        rw [loop_fails hfirst] at heq
        exact nomatch (congrArg Prod.fst (Option.some.inj heq) :)
      · obtain ⟨seen₁, hfirst⟩ := @plainCall_ping b l hb true
        obtain ⟨sk', hsecond⟩ := @plainCall_unreached c l (!bufs.isEmpty)
        have hb0 : bufLen b ≠ 0 := fun h0 => hb (List.length_eq_zero_iff.mp h0)
        rw [loop_second_fails hfirst hsecond, if_neg hb0] at heq
        have hret := Option.some.inj (congrArg Prod.fst (Option.some.inj heq) :)
        change b.bytes.length = v.whole.bytes.length at hret
        omega

end Raw

/-! ## Packet sockets -/

section Packet

variable {h : Host} {a : TxArgs} {e : TxEnv} {sk : DgramSocket} {data : UserData} {v : IoVec}

/-- How a call ends that is not refused: a frame of at most `sizeof(union link_Packet)` bytes. -/
def framed (l : Link) (sk : DgramSocket) (bytes : List Byte) : Ended DgramSocket (List Sent) :=
  if bytes.length ≤ l.pktIpOfs then ⟨sk, none, []⟩
  else ⟨sk, some (min bytes.length l.size), [.frame (bytes.take l.size)]⟩

theorem transmitTo_packet {sk' : DgramSocket} {bytes : List Byte}
    (hsetup : transmitSetup h .packet a e bytes sk = (sk', none)) :
    transmitTo h .packet a e bytes sk = packetTransmit h e sk' bytes := by
  unfold transmitTo
  rw [hsetup]
  dsimp only
  split
  · rfl
  · exact if_neg fun h => h.2 rfl

/-- Whether a call fails depends on the data only by their length. -/
theorem plainCall_packet (h : Host) (a : TxArgs) (e : TxEnv) (sk : DgramSocket) :
    (∀ data more, ∃ sk', plainCall h .packet a more e data sk = some ⟨sk', none, []⟩) ∨
      ∀ data more, ∃ sk', plainCall h .packet a more e data sk = some (framed h.link sk' data.bytes) := by
  have hnil : ∀ data : UserData, data.bytes = [] → ∀ more,
      ∃ sk', plainCall h .packet a more e data sk = some ⟨sk', none, []⟩ :=
    fun data hdata => plainCall_nil (fun h => nomatch h) hdata
  have hsetup : ∀ bytes, bytes ≠ [] → transmitSetup h .packet a e bytes sk = transmitSetup h .packet a e [0] sk := by
    intro bytes hsome
    unfold transmitSetup
    simp only [hsome, List.cons_ne_nil]
  cases hfirst : transmitSetup h .packet a e [0] sk with
  | mk sk₁ err =>
    cases err with
    | some err =>
      refine .inl fun data more => ?_
      by_cases hdata : data.bytes = []
      · exact hnil data hdata more
      · rw [plainCall_eq, transmitTo_setup ((hsetup _ hdata).trans hfirst)]
        exact ⟨sk₁, rfl⟩
    | none =>
      have hcall : ∀ data : UserData, data.bytes ≠ [] → ∀ more, plainCall h .packet a more e data sk =
          some ⟨(packetTransmit h e sk₁ data.bytes).sk, (packetTransmit h e sk₁ data.bytes).ret.toOption,
            (packetTransmit h e sk₁ data.bytes).sent⟩ := by
        intro data hdata more
        rw [plainCall_eq, transmitTo_packet ((hsetup _ hdata).trans hfirst)]
      by_cases hok : e.ethOk 0 = false
      · refine .inl fun data more => ?_
        by_cases hdata : data.bytes = []
        · exact hnil data hdata more
        · rw [hcall data hdata]
          unfold packetTransmit
          split_ifs <;> exact ⟨sk₁, rfl⟩
      · refine .inr fun data more => ?_
        by_cases hdata : data.bytes = []
        · obtain ⟨sk', hfails⟩ := hnil data hdata more
          refine ⟨sk', ?_⟩
          rw [hfails, hdata]
          rfl
        · refine ⟨sk₁, ?_⟩
          rw [hcall data hdata]
          unfold packetTransmit framed
          rw [if_neg hok]
          split_ifs <;> rfl

/-- A call that `_eth_send` fails for, or not. -/
theorem plainCall_wired (l : Link) (ok : Bool) (more : Bool) :
    plainCall (etherHost l) .packet {} more { ethOk := fun _ => ok } data pingSocket =
      some (if ok = true then framed l pingSocket data.bytes else ⟨pingSocket, none, []⟩) := by
  have hsetup : transmitSetup (etherHost l) .packet {} { ethOk := fun _ => ok } data.bytes pingSocket =
      if SockType.packet ≠ .dgram ∧ data.bytes = [] then (pingSocket, some .einval) else (pingSocket, none) := rfl
  rw [plainCall_eq]
  by_cases hnil : data.bytes = []
  · rw [if_pos ⟨fun h => SockType.noConfusion h, hnil⟩] at hsetup
    rw [transmitTo_setup hsetup, hnil]
    cases ok <;> rfl
  · rw [if_neg fun h => hnil h.2] at hsetup
    rw [transmitTo_packet hsetup]
    unfold packetTransmit framed
    by_cases hshort : data.bytes.length ≤ l.pktIpOfs
    · rw [if_pos (show data.bytes.length ≤ (etherHost l).link.pktIpOfs from hshort), if_pos hshort]
      cases ok <;> rfl
    · rw [if_neg (show ¬ data.bytes.length ≤ (etherHost l).link.pktIpOfs from hshort), if_neg hshort]
      cases ok <;> rfl

/-- The vectors that are sent as one frame. -/
theorem packet_sendsAsOne {h : Host} {b c : UserData} {bufs : List UserData} (hv : v.bufs = b :: c :: bufs)
    (hok : v.whole.bytes.length ≤ h.link.pktIpOfs ∨ h.link.size < b.bytes.length ∨
      b.bytes.length = h.link.size ∧ c.bytes.length ≤ h.link.pktIpOfs) :
    SendsAsOne (plainCall h .packet a) v := by
  intro env sk
  have hlen := length_whole hv
  have hroom := h.link.room
  rw [vectored_eq, hv]
  rcases plainCall_packet h a (env 0) sk with hfails | hframed
  · obtain ⟨sk₁, hfirst⟩ := hfails b true
    obtain ⟨sk₂, hwhole⟩ := hfails v.whole false
    rw [loop_fails hfirst, hwhole]
    rfl
  · obtain ⟨sk₁, hfirst⟩ := hframed b true
    obtain ⟨sk₂, hwhole⟩ := hframed v.whole false
    rw [hwhole]
    rcases hok with hshort | hlong | ⟨hfull, hnext⟩
    · rw [framed, if_pos (by omega)] at hfirst ⊢
      rw [loop_fails hfirst]
      rfl
    · rw [framed, if_neg (by omega), min_eq_right (by omega)] at hfirst ⊢
      rw [take_whole hv hlong.le, loop_short hfirst (show h.link.size ≠ bufLen b from Nat.ne_of_lt hlong),
        Nat.zero_add]
      rfl
    · rw [framed, if_neg (by omega), min_eq_right (by omega)] at hfirst ⊢
      have hsecond : ∃ sk₃, plainCall h .packet a (!bufs.isEmpty) (env 1) c sk₁ = some ⟨sk₃, none, []⟩ := by
        rcases plainCall_packet h a (env 1) sk₁ with hfails | hframed
        · exact hfails c _
        · obtain ⟨sk₃, hsecond⟩ := hframed c (!bufs.isEmpty)
          rw [framed, if_pos hnext] at hsecond
          exact ⟨sk₃, hsecond⟩
      obtain ⟨sk₃, hsecond⟩ := hsecond
      have hfirst' : plainCall h .packet a true (env 0) b sk = some ⟨sk₁, some (bufLen b), _⟩ :=
        hfirst.trans (congrArg (fun n => some (Ended.mk sk₁ (some n) _)) hfull.symm)
      rw [take_whole hv hfull.ge, loop_second_fails hfirst' hsecond, if_neg (by unfold bufLen; omega)]
      change some (some b.bytes.length, _) = _
      rw [hfull]
      rfl

/-- **Packet sockets**: every element is a frame of its own. -/
theorem gather_packet (l : Link) (v : IoVec) : GatherLaw l .packet v ↔ GatherOk l .packet (v.bufs.map bufLen) := by
  have hwired : GatherLaw l .packet v → SendsAsOne (plainCall (etherHost l) .packet {}) v := fun h => h _ rfl {}
  match hv : v.bufs with
  | [] =>
    refine iff_of_false (fun h => ?_) fun h => h
    have heq := hwired h (fun _ => {}) pingSocket
    have hnil : v.whole.bytes = [] := by
      rw [whole_bytes, hv]
      rfl
    obtain ⟨sk', hwhole⟩ := @plainCall_nil (etherHost l) .packet {} {} pingSocket v.whole (fun h => nomatch h) hnil false
    rw [vectored_eq, hv, hwhole] at heq
    exact nomatch (congrArg Prod.fst (Option.some.inj heq) :)
  | [b] => exact iff_of_true (fun _ _ _ => sendsAsOne_single _ hv) trivial
  | b :: c :: bufs =>
    have hlen := length_whole hv
    by_cases hrest : ∀ x ∈ c :: bufs, x.bytes = []
    · exact iff_of_true (fun h hl a => plain_head (fun h => nomatch h) hv hrest) (.inr (.inl (lens_zero.mpr hrest)))
    have hpos := rest_pos hrest
    by_cases hok : v.whole.bytes.length ≤ l.pktIpOfs ∨ l.size < b.bytes.length ∨
        b.bytes.length = l.size ∧ c.bytes.length ≤ l.pktIpOfs
    · refine iff_of_true (fun h hl a => packet_sendsAsOne hv (hl ▸ hok)) ?_
      rcases hok with hshort | hlong | hnext
      · exact .inl (hlen.symm.trans_le hshort)
      · exact .inr (.inr (.inl hlong))
      · exact .inr (.inr (.inr hnext))
    · refine iff_of_false (fun h => hok ?_) fun h => hok ?_
      · by_contra hnot
        push Not at hnot
        obtain ⟨htotal, hsize, hnext⟩ := hnot
        have hwhole := @plainCall_wired v.whole l true false
        rw [if_pos rfl, framed, if_neg (by omega)] at hwhole
        have hfirst := @plainCall_wired b l true true
        rw [if_pos rfl, framed] at hfirst
        by_cases hshort : b.bytes.length ≤ l.pktIpOfs
        · -- the first element is too short for a frame
          have heq := hwired h (fun _ => { ethOk := fun _ => true }) pingSocket
          rw [if_pos hshort] at hfirst
          rw [vectored_eq, hv, loop_fails hfirst, hwhole] at heq
          exact nomatch (congrArg Prod.fst (Option.some.inj heq) :)
        rw [if_neg hshort, min_eq_left hsize] at hfirst
        rcases hsize.lt_or_eq with hless | hfull
        · -- the frame of the second element is not sent
          have heq := hwired h (fun i => { ethOk := fun _ => i = 0 }) pingSocket
          have hsecond : plainCall (etherHost l) .packet {} (!bufs.isEmpty) { ethOk := fun _ => decide (1 = 0) } c
              pingSocket = some ⟨pingSocket, none, []⟩ := plainCall_wired l false _
          have hb0 : bufLen b ≠ 0 := by unfold bufLen; omega
          rw [vectored_eq, hv, loop_second_fails hfirst hsecond, if_neg hb0] at heq
          have hret : b.bytes.length = min v.whole.bytes.length l.size :=
            Option.some.inj (congrArg Prod.fst (Option.some.inj (heq.trans (congrArg _ hwhole))) :)
          omega
        · -- two frames
          have heq := hwired h (fun _ => { ethOk := fun _ => true }) pingSocket
          have hsecond := @plainCall_wired c l true (!bufs.isEmpty)
          have hc := hnext hfull
          rw [if_pos rfl, framed, if_neg (by omega)] at hsecond
          rw [vectored_eq, hv, hwhole, loop_full hfirst, Option.map_map] at heq
          obtain ⟨q, hq, hqs⟩ := Option.map_eq_some_iff.mp heq
          obtain ⟨r, tail, hr, hrs⟩ := loop_seen hq
          cases hr.symm.trans hsecond
          have hmore : Sent.frame (b.bytes.take l.size) :: q.seen.flatten = [.frame (v.whole.bytes.take l.size)] :=
            congrArg Prod.snd hqs
          rw [hrs] at hmore
          exact nomatch (List.cons.inj hmore).2
      · rcases h with hshort | hzero | hlong | hnext
        · exact .inl (hlen.trans_le hshort)
        · exact absurd ((@lens_zero (c :: bufs)).mp hzero) hrest
        · exact .inr (.inl hlong)
        · exact .inr (.inr hnext)

end Packet

/-- **`writev_s` and `sendmsg`** are one call with all the bytes for these vectors. -/
theorem gather_iff (l : Link) (t : SockType) (v : IoVec) : GatherLaw l t v ↔ GatherOk l t (v.bufs.map bufLen) := by
  cases t with
  | stream => exact gather_stream l v
  | dgram => exact gather_dgram l v
  | raw => exact gather_raw l v
  | packet => exact gather_packet l v

end Watt32.Bsd
