import Watt32.Bsd.Stream
import Watt32.Tcp.Write

/-!
# Sending without waiting

`send` on a stream socket. `tcp_transmit` asks for the room in the transmit buffer in every state from ESTAB to
before LASTACK, but `tcp_write` takes bytes in ESTAB only.

* `transmitBegin`: `transmit` and `tcp_transmit` before `sock_write`; `streamTransmit`: the call.
* `writeTurn_takes`: in ESTAB, the first `tcp_write` takes bytes there is room for; `writeTurn_idle`: in another
  state it takes nothing.
* `transmitReach_nonblocking`: a non-blocking socket that connects waits for one tick.
* **`nonblocking_send_iff`**: a non-blocking call does not wait exactly if the socket is in ESTAB, or refused.
-/

namespace Watt32.Bsd

open Tcp (Conn TcpState UserData WriteTurn Written SendsAll writeRoom writeTurn sockWrite pushUnlessLocal grown
  tcpProto)

/-! ## The socket -/

/-- A stream socket as `transmit` sees it; `noPush` is `LF_NOPUSH`. -/
structure SendSocket extends StreamSocket where
  sendLowat : Dword
  noPush : Bool
  msgNosig : Bool
  keepalive : Dword

/-- Change the connection of a socket. -/
def SendSocket.updConn (sk : SendSocket) (f : Conn → Conn) : SendSocket := { sk with tcp := f sk.tcp }

/-- The `MSG_XXX` flags that `transmit` looks at. -/
structure MsgFlags where
  more : Bool := false
  eor : Bool := false
  nosignal : Bool := false

/-- What `errno` becomes. -/
inductive SendErrno
  | unchanged
  | eagain
  | emsgsize
  | other (err : Errno)
  deriving DecidableEq

/-- What the callbacks of a socket store meanwhile. -/
structure Callbacks where
  soError : Option Errno := none
  connRefused : Bool := false
  closed : Bool := false

def Callbacks.run (b : Callbacks) (sk : SendSocket) : SendSocket :=
  { sk with
    soError := b.soError <|> sk.soError
    soState := { sk.soState with
      connRefused := sk.soState.connRefused || b.connRefused
      cantSendMore := sk.soState.cantSendMore || b.closed
      cantRcvMore := sk.soState.cantRcvMore || b.closed } }

/-- A pass of `tcp_tick`, with the clock behind it. -/
structure SockTick where
  turn : WriteTurn
  callbacks : Callbacks := {}

/-- `tcp_tick (sk)`. -/
def SockTick.run (net : Tcp.Net) (t : SockTick) (sk : SendSocket) : SendSocket :=
  t.callbacks.run (sk.updConn (t.turn.run net))

/-- `tcp_tick (NULL)` finishes no dead socket. -/
def SockTick.runAll (net : Tcp.Net) (t : SockTick) (sk : SendSocket) : SendSocket :=
  t.callbacks.run (sk.updConn fun c => t.turn.tick.foldl (fun c a => Tcp.stepNet net c ⟨a.1, a.2.op⟩) c)

/-! ## The call -/

/-- A call of `send`: its arguments and what happens while it runs. `wait` and `waits` are the ticks while the
socket connects, `tick` is the one on entry of `tcp_transmit`, `first` and `rest` are the turns of `sock_write`. -/
structure SendArgs where
  data : UserData
  flags : MsgFlags := {}
  wait : SockTick
  waits : List SockTick := []
  sigSetup : Bool := true
  tick : SockTick
  first : WriteTurn
  rest : List WriteTurn := []
  callbacks : Callbacks := {}

/-- The loop of `transmit` while the socket connects, or nothing while it goes on. -/
def connectLoop (net : Tcp.Net) : List SockTick → SendSocket → Option (SendSocket × Bool)
  | [], _ => none
  | t :: ts, sk =>
    let sk := t.runAll net sk
    let r := sockPendingConnect t.turn.e sk.toStreamSocket
    let sk := { sk with toStreamSocket := r.1 }
    if r.2 = false then some (sk, true)
    else if sk.soState.nbio then some (sk, false)
    else connectLoop net ts sk

/-- `transmit` once the socket is connected: an error, or `tcp_transmit` is called. -/
def transmitChecks (a : SendArgs) (sk : SendSocket) : SendSocket × Option SendErrno :=
  if sk.soError ≠ none then ({ sk with soError := none }, sk.soError.map .other)
  else if sk.soState.connRefused then (sk, some (.other .econnrefused))
  else if a.data.bytes = [] then (sk, some (.other .einval))
  else if a.sigSetup = false then (sk, some (.other .eintr))
  else (sk, none)

/-- `sock_tbleft` on the control block of a stream socket. -/
def sockTbleft (c : Conn) : Dword := if c.s.ipType = tcpProto then writeRoom c.s else 0

/-- `check_non_block_tx` on a stream socket: the bytes there is room for, or nothing. -/
def checkNonBlockTx (sk : SendSocket) (data : List Byte) : Option (List Byte) :=
  if data.length ≤ (sockTbleft sk.tcp).toNat then some data
  else if data ≠ [] ∧ sockTbleft sk.tcp ≤ sk.sendLowat then none
  else some (data.take (sockTbleft sk.tcp).toNat)

/-- The socket when `tcp_transmit` looks at its state. -/
def transmitEntry (net : Tcp.Net) (a : SendArgs) (sk : SendSocket) : SendSocket :=
  (a.tick.run net (sk.updConn fun c => c.upd fun s => { s with datatimer := 0 })).updConn fun c =>
    Tcp.stepNet net c ⟨a.tick.turn.e, .conn .retransmit⟩

/-- `tcp_transmit` sends in this state. -/
def mayTransmit (s : TcpState) : Bool := TcpState.estab.code ≤ s.code ∧ s.code < TcpState.lastack.code

/-- `SOCK_MODE_LOCAL` is set when a part of the bytes is sent, and when more is to come. -/
def holdPush (a : SendArgs) (sk : SendSocket) (part : Bool) : SendSocket :=
  if part ∨ a.flags.more ∨ sk.noPush then sk.updConn fun c => c.upd fun s => { s with localMode := true } else sk

/-- `tcp_transmit` from the test of the state to `sock_write`: an error, or the bytes for it. -/
def transmitAdmit (a : SendArgs) (sk : SendSocket) : SendSocket × Except SendErrno (List Byte) :=
  if mayTransmit sk.tcp.s.state = false then
    ({ sk with soState := { sk.soState with cantSendMore := true } }, .error (.other .epipe))
  else if sk.soState.nbio then
    match checkNonBlockTx sk a.data.bytes with
    | none => (sk, .error (.other .ewouldblock))
    | some bytes => (holdPush a sk (a.data.bytes.length ≠ bytes.length), .ok bytes)
  else (holdPush a sk false, .ok a.data.bytes)

/-- `transmit` on a stream socket until it calls `tcp_transmit`, or nothing while the socket connects. -/
def transmitReach (net : Tcp.Net) (waits : List SockTick) (a : SendArgs) (sk : SendSocket) :
    Option (SendSocket × Option SendErrno) :=
  let sk := if a.flags.nosignal then { sk with msgNosig := true } else sk
  if sk.localAddr = none ∨ sk.remoteAddr = none then some (sk, some (.other .enotconn))
  else if sk.soState.isConnecting then
    (connectLoop net waits sk).map fun r => if r.2 = false then (r.1, some .eagain) else transmitChecks a r.1
  else some (transmitChecks a sk)

/-- `transmit` as far as `sock_write`. -/
def transmitBegin (net : Tcp.Net) (waits : List SockTick) (a : SendArgs) (sk : SendSocket) :
    Option (SendSocket × Except SendErrno (List Byte)) :=
  (transmitReach net waits a sk).map fun r =>
    match r.2 with
    | some err => (r.1, .error err)
    | none => transmitAdmit a (transmitEntry net a r.1)

/-- `tcp_transmit` behind `sock_write`. -/
def transmitEnd (a : SendArgs) (sk : SendSocket) (w : Written) : SendSocket × Except SendErrno ℤ :=
  let sk := { a.callbacks.run { sk with tcp := w.c } with keepalive := 0 }
  if w.result ≤ 0 then
    match sk.soError with
    | some err => ({ sk with soError := none }, .error (.other err))
    | none => (sk, .error (.other (if sk.tcp.s.state ≠ .estab then .epipe else .enetdown)))
  else (sk, .ok w.result)

/-- `msg_eor_close` on a stream socket. -/
def msgEorClose (e : Tcp.Env) (sk : SendSocket) : SendSocket :=
  { sk with tcp := Tcp.sockClose e sk.tcp, soState := { sk.soState with cantSendMore := true } }

/-- `send` on a stream socket, or nothing while it goes on. -/
def streamTransmit (net : Tcp.Net) (a : SendArgs) (sk : SendSocket) : Option (SendSocket × Except SendErrno ℤ) :=
  match transmitBegin net (a.wait :: a.waits) a sk with
  | none => none
  | some (sk, .error err) => some (sk, .error err)
  | some (sk, .ok bytes) => (sockWrite net (a.first :: a.rest) sk.tcp bytes).map fun w =>
      match transmitEnd a sk w with
      | (sk, .error err) => (sk, .error err)
      | (sk, .ok n) => (if a.flags.eor then msgEorClose a.first.e sk else sk, .ok n)

/-! ## The law -/

/-- `sock_write` gets bytes that its first `tcp_write` takes completely; it returns in that turn, and the call
returns how many the stream took. -/
structure TakenAtOnce (net : Tcp.Net) (a : SendArgs) (sk sk' : SendSocket) (bytes : List Byte) : Prop where
  takes : (writeTurn a.first.e sk'.tcp bytes).2 = bytes.length
  ends : ∃ w, sockWrite net [a.first] sk'.tcp bytes = some w ∧
    ∃ r, streamTransmit net a sk = some (r, .ok (grown sk'.tcp w.c))

/-- A call fails before `sock_write`, with no second tick while the socket connects, or it is done at once. -/
def SendLaw (net : Tcp.Net) (a : SendArgs) (sk : SendSocket) : Prop :=
  ∃ sk' r, transmitBegin net [a.wait] a sk = some (sk', r) ∧ ∀ bytes, r = .ok bytes → TakenAtOnce net a sk sk' bytes

/-- `tcp_transmit` fails in this state, or for want of room. -/
def Refused (sk : SendSocket) (data : UserData) : Prop :=
  mayTransmit sk.tcp.s.state = false ∨ checkNonBlockTx sk data.bytes = none

/-- The socket is in ESTAB, and the lower layer refuses none of the segments of what there is room for. -/
def Delivers (a : SendArgs) (sk : SendSocket) : Prop :=
  sk.tcp.s.state = .estab ∧ ∀ bytes, checkNonBlockTx sk a.data.bytes = some bytes →
    SendsAll a.first.e (pushUnlessLocal (holdPush a sk (a.data.bytes.length ≠ bytes.length)).tcp) bytes

section Law

variable {net : Tcp.Net} {a : SendArgs} {sk : SendSocket} {t : SockTick} {e : Tcp.Env} {c : Conn} {bytes : List Byte}

/-! ### A non-blocking socket -/

theorem sockPendingConnect_nbio (sk : StreamSocket) : (sockPendingConnect e sk).1.soState.nbio = sk.soState.nbio := by
  unfold sockPendingConnect
  split_ifs <;> rfl

theorem transmitChecks_nbio : (transmitChecks a sk).1.soState = sk.soState := by
  unfold transmitChecks
  split_ifs <;> rfl

/-- A non-blocking socket waits for one tick. -/
theorem connectLoop_nonblocking (net : Tcp.Net) (t : SockTick) (h : sk.soState.nbio = true) :
    ∃ r : SendSocket × Bool, r.1.soState.nbio = true ∧ ∀ ts, connectLoop net (t :: ts) sk = some r := by
  have hnbio : (sockPendingConnect t.turn.e (t.runAll net sk).toStreamSocket).1.soState.nbio = true :=
    (sockPendingConnect_nbio _).trans h
  by_cases hdone : (sockPendingConnect t.turn.e (t.runAll net sk).toStreamSocket).2 = false
  · exact ⟨_, hnbio, fun ts => if_pos hdone⟩
  · exact ⟨_, hnbio, fun ts => (if_neg hdone).trans (if_pos hnbio)⟩

theorem transmitReach_nonblocking (net : Tcp.Net) (a : SendArgs) (h : sk.soState.nbio = true) :
    ∃ r : SendSocket × Option SendErrno, r.1.soState.nbio = true ∧
      ∀ ts, transmitReach net (a.wait :: ts) a sk = some r := by
  have hchecks : ∀ sk : SendSocket, sk.soState.nbio = true → (transmitChecks a sk).1.soState.nbio = true := by
    intro sk h
    rw [transmitChecks_nbio, h]
  unfold transmitReach
  generalize hsk : (if a.flags.nosignal = true then { sk with msgNosig := true } else sk) = sk₀
  have h₀ : sk₀.soState.nbio = true := by
    rw [← hsk]
    split_ifs <;> exact h
  by_cases haddr : sk₀.localAddr = none ∨ sk₀.remoteAddr = none
  · exact ⟨_, h₀, fun ts => if_pos haddr⟩
  · by_cases hconn : sk₀.soState.isConnecting = true
    · obtain ⟨r, hr, hloop⟩ := connectLoop_nonblocking net a.wait h₀
      refine ⟨if r.2 = false then (r.1, some .eagain) else transmitChecks a r.1, ?_, fun ts => ?_⟩
      · split_ifs
        · exact hr
        · exact hchecks r.1 hr
      · rw [if_neg haddr, if_pos hconn, hloop]
        rfl
    · exact ⟨_, hchecks sk₀ h₀, fun ts => (if_neg haddr).trans (if_neg hconn)⟩

theorem transmitChecks_some (h : (transmitChecks a sk).2 = none) : a.data.bytes ≠ [] := by
  intro hnil
  unfold transmitChecks at h
  by_cases herr : sk.soError ≠ none
  · rw [if_pos herr, Option.map_eq_none_iff] at h
    exact herr h
  · rw [if_neg herr, if_pos hnil] at h
    split_ifs at h

theorem transmitReach_some {ts : List SockTick} {r : SendSocket × Option SendErrno}
    (h : transmitReach net ts a sk = some r) (hr : r.2 = none) : a.data.bytes ≠ [] := by
  have hchecks : ∀ {sk : SendSocket}, transmitChecks a sk = r → a.data.bytes ≠ [] := fun hq =>
    transmitChecks_some (hq ▸ hr)
  unfold transmitReach at h
  generalize hsk : (if a.flags.nosignal = true then { sk with msgNosig := true } else sk) = sk₀ at h
  dsimp only at h
  by_cases haddr : sk₀.localAddr = none ∨ sk₀.remoteAddr = none
  · rw [if_pos haddr] at h
    rw [← Option.some.inj h] at hr
    exact nomatch hr
  · rw [if_neg haddr] at h
    by_cases hconn : sk₀.soState.isConnecting = true
    · rw [if_pos hconn] at h
      obtain ⟨q, -, hq⟩ := Option.map_eq_some_iff.mp h
      by_cases hwait : q.2 = false
      · rw [if_pos hwait] at hq
        rw [← hq] at hr
        exact nomatch hr
      · exact hchecks ((if_neg hwait).symm.trans hq)
    · rw [if_neg hconn] at h
      exact hchecks (Option.some.inj h)

/-! ### The first `tcp_write` -/

/-- In ESTAB, `tcp_write` takes bytes there is room for, and fails if a segment is refused. -/
theorem writeTurn_takes (hstate : c.s.state = .estab) (hroom : bytes.length ≤ (writeRoom c.s).toNat)
    (hshort : bytes.length < 2 ^ 31) (hsome : bytes ≠ []) :
    grown c (writeTurn e c bytes).1 = bytes.length ∧
      ((writeTurn e c bytes).2 = bytes.length ↔ SendsAll e (pushUnlessLocal c) bytes) := by
  have hpush : (pushUnlessLocal c).s.tx = c.s.tx ∧ (pushUnlessLocal c).s.state = c.s.state := by
    unfold pushUnlessLocal
    split_ifs <;> exact ⟨rfl, rfl⟩
  have hwrite : writeTurn e c bytes = Tcp.writeTake e (pushUnlessLocal c) bytes (writeRoom c.s) false := by
    have hsame : writeRoom (pushUnlessLocal c).s = writeRoom c.s := by
      unfold writeRoom
      rw [hpush.1]
    unfold writeTurn Tcp.tcpWrite
    rw [if_neg (not_not.mpr (hpush.2.trans hstate))]
    dsimp only
    rw [hsame, if_neg (not_lt.mpr hroom), if_neg hsome]
  have hgrown : grown c (writeTurn e c bytes).1 = bytes.length := by
    have htake := @Tcp.writeTake_result e (pushUnlessLocal c) bytes (writeRoom c.s) false hshort
    rw [← htake.1, hwrite]
    unfold grown
    rw [hpush.1]
  obtain ⟨-, hsent, hfail⟩ := Tcp.writeTurn_result (e := e) (c := c) hshort
  refine ⟨hgrown, fun h => ?_, fun h => ?_⟩
  · by_contra hnot
    have := (hfail hnot).1
    omega
  · rw [hsent h, hgrown]

/-- In another state `tcp_write` takes nothing. -/
theorem writeTurn_idle (hstate : c.s.state ≠ .estab) : (writeTurn e c bytes).2 = 0 := by
  have hpush : (pushUnlessLocal c).s.state = c.s.state := by
    unfold pushUnlessLocal
    split_ifs <;> rfl
  unfold writeTurn Tcp.tcpWrite
  rw [if_pos (hpush ▸ hstate)]

/-- What there is room for is a part of the data that is not empty, and the socket is a TCP socket. -/
theorem checkNonBlockTx_some (hsome : a.data.bytes ≠ []) (h : checkNonBlockTx sk a.data.bytes = some bytes) :
    bytes ≠ [] ∧ bytes.length < 2 ^ 31 ∧ bytes.length ≤ (writeRoom sk.tcp.s).toNat ∧ sk.tcp.s.ipType = tcpProto := by
  have hpos : 0 < a.data.bytes.length := List.length_pos_iff.mpr hsome
  have hshort := a.data.short
  have htype : 0 < (sockTbleft sk.tcp).toNat → sk.tcp.s.ipType = tcpProto := by
    intro hleft
    by_contra hip
    unfold sockTbleft at hleft
    rw [if_neg hip] at hleft
    exact absurd hleft (by decide)
  have hroom : sk.tcp.s.ipType = tcpProto → sockTbleft sk.tcp = writeRoom sk.tcp.s := fun hip => if_pos hip
  unfold checkNonBlockTx at h
  split_ifs at h with hfits hlow
  · obtain rfl := Option.some.inj h
    have hip := htype (by omega)
    exact ⟨hsome, hshort, hroom hip ▸ hfits, hip⟩
  · obtain rfl := Option.some.inj h
    have hleft : 0 < (sockTbleft sk.tcp).toNat := by
      have hlt : ¬ sockTbleft sk.tcp ≤ sk.sendLowat := fun hle => hlow ⟨hsome, hle⟩
      rw [BitVec.le_def] at hlt
      omega
    have hip := htype hleft
    have hlen : (a.data.bytes.take (sockTbleft sk.tcp).toNat).length = (sockTbleft sk.tcp).toNat := by
      rw [List.length_take]
      omega
    refine ⟨List.ne_nil_of_length_pos (by omega), by omega, ?_, hip⟩
    rw [hlen, hroom hip]

/-! ### The call -/

theorem holdPush_frame (a : SendArgs) (sk : SendSocket) (part : Bool) : (holdPush a sk part).tcp.s.state = sk.tcp.s.state ∧
    (holdPush a sk part).tcp.s.ipType = sk.tcp.s.ipType ∧ (holdPush a sk part).tcp.s.tx = sk.tcp.s.tx := by
  unfold holdPush
  split_ifs <;> exact ⟨rfl, rfl, rfl⟩

/-- `sock_write` returns in the turn whose `tcp_write` takes all. -/
theorem sockWriteLoop_takes {ts : List WriteTurn} {t : WriteTurn} (hip : c.s.ipType = tcpProto)
    (htakes : (writeTurn t.e c bytes).2 = bytes.length) :
    sockWrite net (t :: ts) c bytes =
      some ⟨Tcp.clearLocal (writeTurn t.e c bytes).1, bytes.length, grown c (writeTurn t.e c bytes).1⟩ := by
  have hnonneg : ¬ (writeTurn t.e c bytes).2 < 0 := by
    rw [htakes]
    exact not_lt.mpr (Int.natCast_nonneg _)
  have hall : bytes.drop (writeTurn t.e c bytes).2.toNat = [] := by
    rw [htakes, Int.toNat_natCast, List.drop_length]
  unfold sockWrite Tcp.sockWriteLoop
  rw [if_neg (not_not.mpr hip)]
  dsimp only
  rw [if_neg hnonneg, if_pos hall, Nat.zero_add]

/-- `sock_write` was successful. -/
theorem transmitEnd_ok (a : SendArgs) (sk : SendSocket) {w : Written} (hw : 0 < w.result) : ∃ sk', transmitEnd a sk w = (sk', .ok w.result) := by
  unfold transmitEnd
  dsimp only
  rw [if_neg (not_le.mpr hw)]
  exact ⟨_, rfl⟩

/-- A call that gets to `sock_write` is done at once exactly in ESTAB, with every segment taken. -/
theorem takenAtOnce_iff {sk' : SendSocket}
    (hbegin : transmitBegin net (a.wait :: a.waits) a sk = some (sk', .ok bytes)) (hne : bytes ≠ [])
    (hshort : bytes.length < 2 ^ 31) (hroom : bytes.length ≤ (writeRoom sk'.tcp.s).toNat)
    (hip : sk'.tcp.s.ipType = tcpProto) :
    TakenAtOnce net a sk sk' bytes ↔
      sk'.tcp.s.state = .estab ∧ SendsAll a.first.e (pushUnlessLocal sk'.tcp) bytes := by
  have hpos : 0 < bytes.length := List.length_pos_iff.mpr hne
  by_cases hstate : sk'.tcp.s.state = .estab
  · obtain ⟨hgrown, htakes⟩ := writeTurn_takes (e := a.first.e) hstate hroom hshort hne
    refine ⟨fun h => ⟨hstate, htakes.mp h.takes⟩, fun h => ?_⟩
    have hall := htakes.mpr h.2
    refine ⟨hall, _, sockWriteLoop_takes hip hall, ?_⟩
    have hcount : grown sk'.tcp (Tcp.clearLocal (writeTurn a.first.e sk'.tcp bytes).1) = bytes.length := hgrown
    obtain ⟨r, hr⟩ := @transmitEnd_ok a sk' ⟨Tcp.clearLocal (writeTurn a.first.e sk'.tcp bytes).1, bytes.length,
      grown sk'.tcp (writeTurn a.first.e sk'.tcp bytes).1⟩ (Int.natCast_pos.mpr hpos)
    unfold streamTransmit
    rw [hbegin]
    dsimp only
    rw [sockWriteLoop_takes hip hall, Option.map_some, hr, hcount]
    exact ⟨_, rfl⟩
  · refine iff_of_false (fun h => ?_) fun h => hstate h.1
    have hzero := h.takes
    rw [writeTurn_idle hstate] at hzero
    omega

theorem transmitEntry_nbio : (transmitEntry net a sk).soState.nbio = sk.soState.nbio := rfl

/-- The law of a call that gets to `tcp_transmit`, at the test of the state. -/
theorem sendLaw_entry {sk₂ : SendSocket} (hn : sk₂.soState.nbio = true) (hsome : a.data.bytes ≠ [])
    (hbegin : ∀ ts, transmitBegin net (a.wait :: ts) a sk = some (transmitAdmit a sk₂)) :
    SendLaw net a sk ↔ Refused sk₂ a.data ∨ Delivers a sk₂ := by
  have hlaw : ∀ {sk' : SendSocket} {r : Except SendErrno (List Byte)}, transmitAdmit a sk₂ = (sk', r) →
      (SendLaw net a sk ↔ ∀ bytes, r = .ok bytes → TakenAtOnce net a sk sk' bytes) := by
    intro sk' r hr
    unfold SendLaw
    rw [hbegin [], hr]
    constructor
    · rintro ⟨q, s, heq, h⟩
      obtain ⟨rfl, rfl⟩ := Prod.mk.inj (Option.some.inj heq)
      exact h
    · exact fun h => ⟨sk', r, rfl, h⟩
  by_cases hstate : mayTransmit sk₂.tcp.s.state = false
  · have hpipe : transmitAdmit a sk₂ =
        ({ sk₂ with soState := { sk₂.soState with cantSendMore := true } }, .error (.other .epipe)) := if_pos hstate
    exact iff_of_true ((hlaw hpipe).mpr nofun) (.inl (.inl hstate))
  cases hroom : checkNonBlockTx sk₂ a.data.bytes with
  | none =>
    have hblock : transmitAdmit a sk₂ = (sk₂, .error (.other .ewouldblock)) := by
      unfold transmitAdmit
      rw [if_neg hstate, if_pos hn, hroom]
    exact iff_of_true ((hlaw hblock).mpr nofun) (.inl (.inr hroom))
  | some bytes =>
    obtain ⟨hne, hshort, hfits, hip⟩ := checkNonBlockTx_some hsome hroom
    obtain ⟨hst, hty, htx⟩ := holdPush_frame a sk₂ (a.data.bytes.length ≠ bytes.length)
    have hgoes : transmitAdmit a sk₂ = (holdPush a sk₂ (a.data.bytes.length ≠ bytes.length), .ok bytes) := by
      unfold transmitAdmit
      rw [if_neg hstate, if_pos hn, hroom]
    have htaken := takenAtOnce_iff ((hbegin a.waits).trans (congrArg some hgoes)) hne hshort
      (by unfold writeRoom at hfits ⊢; rwa [htx]) (hty.trans hip)
    have hrefused : ¬ Refused sk₂ a.data := by
      rintro (h | h)
      · exact hstate h
      · exact nomatch hroom.symm.trans h
    rw [hlaw hgoes, or_iff_right hrefused, Delivers, ← hst]
    constructor
    · intro h
      refine ⟨(htaken.mp (h bytes rfl)).1, ?_⟩
      intro bytes' heq
      obtain rfl := Option.some.inj (hroom.symm.trans heq)
      exact (htaken.mp (h bytes rfl)).2
    · rintro ⟨hest, hall⟩ bytes' heq
      obtain rfl := Except.ok.inj heq
      exact htaken.mpr ⟨hest, hall bytes hroom⟩

/-- **A non-blocking `send` does not wait** exactly if the call fails before `tcp_transmit`, or that refuses it, or
the socket is in ESTAB with the lower layer taking all segments. -/
theorem nonblocking_send_iff (net : Tcp.Net) (a : SendArgs) (sk : SendSocket) (h : sk.soState.nbio = true) :
    SendLaw net a sk ↔ ∀ sk', transmitReach net [a.wait] a sk = some (sk', none) →
      Refused (transmitEntry net a sk') a.data ∨ Delivers a (transmitEntry net a sk') := by
  obtain ⟨⟨sk₁, err⟩, hn, hreach⟩ := transmitReach_nonblocking net a h
  rw [hreach []]
  cases err with
  | some err =>
    have hbegin : transmitBegin net [a.wait] a sk = some (sk₁, .error err) := by
      unfold transmitBegin
      rw [hreach []]
      rfl
    refine iff_of_true ⟨_, _, hbegin, nofun⟩ fun sk' heq => ?_
    exact absurd (congrArg Prod.snd (Option.some.inj heq)) (Option.some_ne_none err)
  | none =>
    have hbegin : ∀ ts, transmitBegin net (a.wait :: ts) a sk = some (transmitAdmit a (transmitEntry net a sk₁)) := by
      intro ts
      unfold transmitBegin
      rw [hreach ts]
      rfl
    rw [sendLaw_entry (transmitEntry_nbio.trans hn) (transmitReach_some (hreach []) rfl) hbegin]
    constructor
    · intro h sk' heq
      obtain ⟨rfl, -⟩ := Prod.mk.inj (Option.some.inj heq)
      exact h
    · exact fun h => h sk₁ rfl

end Law

/-! ## Half-closed sockets -/

/-- A connected non-blocking socket with the connection `c`. -/
def connectedSocket (c : Conn) : SendSocket where
  tcp := c
  localAddr := some ⟨.ip4 1, 1024⟩
  remoteAddr := some ⟨.ip4 2, 80⟩
  soState := { isConnected := true, nbio := true }
  soAcceptconn := false
  soError := none
  nbTimer := 0
  recvLowat := 0
  backlog := 0
  listenQueue := fun _ => none
  sendLowat := 0
  noPush := false
  msgNosig := false
  keepalive := 0

/-- Four bytes while nothing arrives. -/
def quietSend : SendArgs where
  data := Tcp.fourBytes
  wait := ⟨⟨{}, []⟩, {}⟩
  tick := ⟨⟨{}, []⟩, {}⟩
  first := ⟨{}, []⟩

/-- In ESTAB. -/
theorem nonblocking_send_established : SendLaw {} quietSend (connectedSocket (Tcp.establishedConn [])) := by
  refine (nonblocking_send_iff {} quietSend (connectedSocket (Tcp.establishedConn [])) rfl).mpr fun sk' heq => ?_
  have hsk : transmitReach {} [quietSend.wait] quietSend (connectedSocket (Tcp.establishedConn [])) =
      some (connectedSocket (Tcp.establishedConn []), none) := rfl
  obtain ⟨rfl, -⟩ := Prod.mk.inj (Option.some.inj (hsk.symm.trans heq))
  refine .inr ⟨by decide +kernel, ?_⟩
  intro bytes hbytes
  have hall : checkNonBlockTx (transmitEntry {} quietSend (connectedSocket (Tcp.establishedConn [])))
      quietSend.data.bytes = some Tcp.fourBytes.bytes := by decide +kernel
  obtain rfl := Option.some.inj (hall.symm.trans hbytes)
  decide +kernel

/-- The connection after the FIN of the peer. -/
def halfClosed : Conn := (Tcp.establishedConn []).upd fun s => { s with state := .closwt }

/-- The peer has closed its half: there is room, and `sock_write` goes round its loop. -/
theorem nonblocking_send_waits :
    ¬ ∀ (net : Tcp.Net) (a : SendArgs) (sk : SendSocket), sk.soState.nbio = true → SendLaw net a sk := by
  intro h
  have hlaw : SendLaw {} quietSend (connectedSocket halfClosed) := h {} quietSend (connectedSocket halfClosed) rfl
  rcases (sendLaw_entry rfl (by decide) fun ts => rfl).mp hlaw with (hstate | hroom) | hdelivers
  · revert hstate
    decide +kernel
  · revert hroom
    decide +kernel
  · have hest := hdelivers.1
    revert hest
    decide +kernel

end Watt32.Bsd
