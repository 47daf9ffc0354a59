import Watt32.Lib.Slots
import Watt32.Bsd.Stream
import Watt32.Bsd.Queue

/-!
# Readiness

`select_s` and `poll` against `accept` and `recv`, on a stream socket while nothing arrives and no
timer of the control block runs out.

* `readSelect`, `selectIn`, `pollIn`: what `select_s` and `poll` report.
* `accept`, `recv`: what the calls do.
* `Agrees`: the reports agree with the calls.
* **`agrees_iff`**: on which sockets they do.
-/

namespace Watt32.Bsd

open Machine
open Tcp (Conn TcpState)

/-! ## Reports -/

/-- `sock_rbused`. -/
def sockRbused (c : Conn) : Dword := if c.s.ipType = Tcp.tcpProto then c.s.rx.rxDatalen else 0

/-- `listen_queued` counts this control block. -/
def queuedReady (sk : StreamSocket) (c : Conn) : Bool :=
  c.s.state = .estab ∨ sk.recvLowat < sockRbused c

/-- The slots both `listen_queued` and `accept` go through. -/
def slots (sk : StreamSocket) : ℕ := (min sk.backlog somaxconn).toNat

/-- A control block with `p` in the slot. -/
def slotWith (sk : StreamSocket) (p : Conn → Bool) (idx : ℤ) : Bool := (sk.listenQueue idx).any p

/-- `listen_queued`. -/
def listenQueued (sk : StreamSocket) : Bool :=
  (Slots.find (slotWith sk (queuedReady sk)) (slots sk) 0).isSome

/-- `read_select` on a stream socket. -/
def readSelect (sk : StreamSocket) : Bool :=
  if sk.soAcceptconn then listenQueued sk
  else if TcpState.lastack.code ≤ sk.tcp.s.state.code then true
  else sk.recvLowat < sockRbused sk.tcp

/-- `sock_signalled (socket, READ_STATE_MASK)`. -/
def sockSignalled (sk : StreamSocket) : Bool := sk.soState.cantRcvMore ∨ sk.soError ≠ none

/-- `select_one` for POLLIN. -/
def selectOne (e : Tcp.Env) (sk : StreamSocket) : StreamSocket × Bool :=
  let sk := (stillConnecting e sk).1
  (sk, readSelect sk ∨ sockSignalled sk)

/-- `poll_one` for POLLIN. -/
def pollOne (e : Tcp.Env) (sk : StreamSocket) : StreamSocket × Bool :=
  let sk := (stillConnecting e sk).1
  (sk, readSelect sk)

/-! ## Calls -/

/-- What `accept` does at once. -/
inductive Accept
  | error (err : Errno)
  | connection (idx : ℤ)
  | waits
  deriving DecidableEq

/-- The loop of `accept` takes this control block. -/
def acceptable (c : Conn) : Bool :=
  ¬ (TcpState.estcl.code ≤ c.s.state.code ∧ c.s.ipType = 0) ∧
    TcpState.estab.code ≤ c.s.state.code ∧ c.s.state.code < TcpState.closed.code

/-- `accept` in its first pass through the queue; on a non-blocking socket it reports that it would
wait. -/
def accept (sk : StreamSocket) : Accept :=
  if sk.localAddr = none then .error .enotconn
  else if sk.soAcceptconn = false then .error .einval
  else if sk.soState.isListening = false ∧ sk.soState.isConnecting = false then .error .enotconn
  else if sk.backlog < 1 ∨ somaxconn < sk.backlog then .error .einval
  else
    match Slots.find (slotWith sk acceptable) sk.backlog.toNat 0 with
    | some idx => .connection idx
    | none => .waits

/-- What `recv` does at once. -/
inductive Recv
  | error (err : Errno)
  | bytes (n : ℤ)
  | waits
  deriving DecidableEq

/-- `sock_fastread`, and what `tcp_receive` makes of its result. -/
def readIt (c : Conn) (len : Dword) (gotFin : Bool) : Recv :=
  let failed : Recv := if gotFin then .bytes 0 else .error .eio
  if c.s.ipType = Tcp.tcpProto ∨ 0 < c.s.rx.rxDatalen.toInt then
    let n := Tcp.readLen c.s len
    if 0 < n.toInt then .bytes n.toInt
    else if n = 0 ∧ c.s.locflags.gotFin then failed
    else if n.toInt < 0 then failed
    else .bytes 0
  else failed

/-- The first turn of `tcp_receive`; on a non-blocking socket it reports that it would wait. -/
def tcpReceive (sk : StreamSocket) (len : Dword) : Recv :=
  if sk.localAddr = none then .error .enotconn
  else
    let c := Tcp.tickDead sk.tcp
    if sk.soState.isDisconnecting then readIt c len true
    else if sk.soAcceptconn = false ∧ c.s.locflags.gotFin ∧ c.s.rx.rxDatalen = 0 then
      readIt c len true
    else if sk.soAcceptconn = false ∧ c.s.ipType = 0 then .error .epipe
    else if sk.recvLowat < sockRbused c then readIt c len false
    else
      match sk.soError with
      | some err => .error err
      | none => .waits

/-- `recv` without flags, on a socket that is not connecting. -/
def recv (sk : StreamSocket) (len : Dword) : Recv :=
  match sk.soError with
  | some err => .error err
  | none =>
    if sk.soState.connRefused then .error .econnrefused
    else if sk.soState.cantRcvMore then .error .epipe
    else tcpReceive sk len

/-! ## Agreement -/

/-- A connection `accept` returns at once. -/
def Accepts (sk : StreamSocket) : Prop := ∃ idx, accept sk = .connection idx

/-- A report of `select_s` or `poll`, with the socket it leaves, agrees with the calls: on a listening
socket it says whether `accept` returns a connection, on a connected one `recv` does not wait after
it, and it does not miss a FIN or data above the low-water mark. -/
structure ReportAgrees (r : StreamSocket × Bool) : Prop where
  accepts : r.1.soAcceptconn = true → (r.2 = true ↔ Accepts r.1)
  recv : r.1.soAcceptconn = false → r.1.soState.isConnecting = false → r.2 = true →
    ∀ len, recv r.1 len ≠ .waits
  ready : r.1.soAcceptconn = false → r.1.soState.isConnecting = false →
    r.1.tcp.s.locflags.gotFin = true ∨ r.1.recvLowat < sockRbused r.1.tcp → r.2 = true

/-- The socket can accept: it is bound and listens, with a legal backlog. -/
def CanAccept (sk : StreamSocket) : Prop :=
  sk.localAddr ≠ none ∧ (sk.soState.isListening = true ∨ sk.soState.isConnecting = true) ∧
    1 ≤ sk.backlog ∧ sk.backlog ≤ somaxconn

/-- Some slot has a control block with `p`. -/
def SomeSlot (sk : StreamSocket) (p : Conn → Bool) : Prop :=
  ∃ idx, 0 ≤ idx ∧ idx < sk.backlog ∧ idx < somaxconn ∧ slotWith sk p idx = true

/-- A connection that `listen_queued` and `accept` both see. -/
def Ready (sk : StreamSocket) : Prop := SomeSlot sk fun c => queuedReady sk c && acceptable c

/-- A connection that only `accept` sees: not in ESTAB any more, with little data. -/
def Quiet (sk : StreamSocket) : Prop := SomeSlot sk fun c => !queuedReady sk c && acceptable c

/-- A connection that only `listen_queued` sees: with data, but closed already. -/
def Stale (sk : StreamSocket) : Prop := SomeSlot sk fun c => queuedReady sk c && !acceptable c

/-- A listening socket on which the reports agree with `accept`. If it can accept, `listen_queued`
and `accept` see one connection, or neither sees one that the other does not, or each does, and
nothing else is signalled to `select_s`. Otherwise there is nothing to report. -/
def QueueAgrees (sk : StreamSocket) : Prop :=
  (CanAccept sk → (Ready sk ∨ (Quiet sk ↔ Stale sk)) ∧
    (sockSignalled sk = true → Ready sk ∨ Quiet sk)) ∧
  (¬ CanAccept sk → ¬ Ready sk ∧ ¬ Stale sk ∧ sockSignalled sk = false)

/-- `recv` has something to return on a connection in LASTACK or later. -/
def EndSeen (sk : StreamSocket) : Prop :=
  sk.soError ≠ none ∨ sk.soState.connRefused = true ∨ sk.soState.cantRcvMore = true ∨
    sk.localAddr = none ∨ sk.soState.isDisconnecting = true ∨ sk.tcp.s.ipType = 0 ∨
    sk.tcp.s.rx.rxDatalen = 0 ∧
      (sk.tcp.s.locflags.gotFin = true ∨ sk.tcp.s.ipType = Tcp.tcpProto ∧ sk.tcp.s.state = .closed) ∨
    sk.recvLowat < sockRbused sk.tcp

/-- A connected socket on which the reports agree with `recv`: from LASTACK on there is an end to be
seen, and a FIN is not seen earlier, unless there are data. -/
def RecvAgrees (sk : StreamSocket) : Prop :=
  (TcpState.lastack.code ≤ sk.tcp.s.state.code → EndSeen sk) ∧
  (sk.tcp.s.locflags.gotFin = true →
    TcpState.lastack.code ≤ sk.tcp.s.state.code ∨ sk.recvLowat < sockRbused sk.tcp)

variable {sk : StreamSocket} {p q : Conn → Bool}

/-! ## Listening -/

theorem someSlot_split : SomeSlot sk p ↔
    SomeSlot sk (fun c => p c && q c) ∨ SomeSlot sk (fun c => p c && !q c) := by
  unfold SomeSlot slotWith
  rw [← exists_or]
  refine exists_congr fun idx => ?_
  rcases sk.listenQueue idx with _ | c
  · simp
  · cases hq : q c <;> simp [hq]

theorem listenQueued_iff : listenQueued sk = true ↔ Ready sk ∨ Stale sk := by
  have hslot : listenQueued sk = true ↔ SomeSlot sk (queuedReady sk) := by
    unfold listenQueued SomeSlot slots
    rw [Slots.find_isSome]
    refine exists_congr fun idx => ?_
    constructor
    · rintro ⟨h0, hlt, hp⟩
      exact ⟨h0, by omega, by omega, hp⟩
    · rintro ⟨h0, hlt, hmax, hp⟩
      exact ⟨h0, by omega, hp⟩
  rw [hslot, someSlot_split (q := acceptable)]
  rfl

theorem accepts_iff (h : sk.soAcceptconn = true) :
    Accepts sk ↔ CanAccept sk ∧ (Ready sk ∨ Quiet sk) := by
  have hslot : SomeSlot sk acceptable ↔ Ready sk ∨ Quiet sk := by
    rw [someSlot_split (q := queuedReady sk)]
    unfold Ready Quiet
    simp only [Bool.and_comm]
  rw [← hslot]
  unfold Accepts accept CanAccept
  by_cases haddr : sk.localAddr = none
  · simp [haddr]
  by_cases hlisten : sk.soState.isListening = false ∧ sk.soState.isConnecting = false
  · simp [haddr, h, hlisten]
  by_cases hback : sk.backlog < 1 ∨ somaxconn < sk.backlog
  · have : ¬ (1 ≤ sk.backlog ∧ sk.backlog ≤ somaxconn) := by omega
    simp [haddr, h, hlisten, hback, this]
  have hback' : 1 ≤ sk.backlog ∧ sk.backlog ≤ somaxconn := by omega
  have hlisten' : sk.soState.isListening = true ∨ sk.soState.isConnecting = true := by
    by_contra hno
    rw [not_or, Bool.not_eq_true, Bool.not_eq_true] at hno
    exact hlisten hno
  have hfind : (Slots.find (slotWith sk acceptable) sk.backlog.toNat 0).isSome ↔
      SomeSlot sk acceptable := by
    rw [Slots.find_isSome]
    refine exists_congr fun idx => ?_
    constructor
    · rintro ⟨h0, hlt, hp⟩
      exact ⟨h0, by omega, by omega, hp⟩
    · rintro ⟨h0, hlt, _, hp⟩
      exact ⟨h0, by omega, hp⟩
  rw [if_neg haddr, if_neg (by rw [h]; decide), if_neg hlisten, if_neg hback, ← hfind]
  rcases Slots.find (slotWith sk acceptable) sk.backlog.toNat 0 with _ | idx
  · simp
  · simp [haddr, hlisten', hback']

/-! ## Receiving -/

/-- `tcp_tick` looks at the socket: a closed one without data is dead. -/
theorem tickDead_frame (c : Conn) :
    (Tcp.tickDead c).s.locflags = c.s.locflags ∧ (Tcp.tickDead c).s.rx = c.s.rx ∧
    sockRbused (Tcp.tickDead c) = sockRbused c ∧
    ((Tcp.tickDead c).s.ipType = 0 ↔ c.s.ipType = 0 ∨
      c.s.rx.rxDatalen = 0 ∧ c.s.ipType = Tcp.tcpProto ∧ c.s.state = .closed) := by
  by_cases hdead : c.s.ipType = Tcp.tcpProto ∧ c.s.state = .closed ∧ c.s.rx.rxDatalen = 0
  · have hrx : (Tcp.tickDead c).s.rx = c.s.rx := by
      unfold Tcp.tickDead
      rw [if_pos hdead]
      exact Tcp.unthread_rx true c.s
    have hip : (Tcp.tickDead c).s.ipType = 0 := by
      unfold Tcp.tickDead
      rw [if_pos hdead]
      rfl
    refine ⟨?_, hrx, ?_, iff_of_true hip (.inr ⟨hdead.2.2, hdead.1, hdead.2.1⟩)⟩
    · unfold Tcp.tickDead
      rw [if_pos hdead]
      simp only [Tcp.tcpUnthread, Conn.upd_s, Tcp.unthread]
      split_ifs <;> rfl
    · unfold sockRbused
      rw [hrx, hdead.2.2, ite_self, ite_self]
  · have hsame : Tcp.tickDead c = c := if_neg hdead
    rw [hsame]
    refine ⟨rfl, rfl, rfl, .inl, ?_⟩
    rintro (h | ⟨hrx, hip, hs⟩)
    · exact h
    · exact absurd ⟨hip, hs, hrx⟩ hdead

theorem readIt_ne_waits (c : Conn) (len : Dword) (gotFin : Bool) : readIt c len gotFin ≠ .waits := by
  unfold readIt
  dsimp only
  split_ifs <;> exact Recv.noConfusion

/-- `tcp_receive` would wait when there is nothing to read and no end to be seen. -/
theorem tcpReceive_waits_iff (h : sk.soAcceptconn = false) (len : Dword) :
    tcpReceive sk len = .waits ↔ sk.localAddr ≠ none ∧ sk.soState.isDisconnecting = false ∧
      ¬ (sk.tcp.s.locflags.gotFin = true ∧ sk.tcp.s.rx.rxDatalen = 0) ∧
      ¬ (sk.tcp.s.ipType = 0 ∨ sk.tcp.s.rx.rxDatalen = 0 ∧ sk.tcp.s.ipType = Tcp.tcpProto ∧
        sk.tcp.s.state = .closed) ∧
      ¬ sk.recvLowat < sockRbused sk.tcp ∧ sk.soError = none := by
  obtain ⟨hloc, hrx, hused, hip⟩ := tickDead_frame sk.tcp
  unfold tcpReceive
  dsimp only
  rw [hloc, hrx, hused]
  by_cases haddr : sk.localAddr = none
  · rw [if_pos haddr]
    exact iff_of_false Recv.noConfusion fun hw => hw.1 haddr
  rw [if_neg haddr]
  by_cases hdisc : sk.soState.isDisconnecting = true
  · rw [if_pos hdisc]
    exact iff_of_false (readIt_ne_waits _ _ _) fun hw => by simp [hdisc] at hw
  rw [if_neg hdisc]
  by_cases hfin : sk.tcp.s.locflags.gotFin = true ∧ sk.tcp.s.rx.rxDatalen = 0
  · rw [if_pos ⟨h, hfin⟩]
    exact iff_of_false (readIt_ne_waits _ _ _) fun hw => hw.2.2.1 hfin
  rw [if_neg fun hf => hfin hf.2]
  by_cases hdead : sk.tcp.s.ipType = 0 ∨ sk.tcp.s.rx.rxDatalen = 0 ∧
      sk.tcp.s.ipType = Tcp.tcpProto ∧ sk.tcp.s.state = .closed
  · rw [if_pos ⟨h, hip.mpr hdead⟩]
    exact iff_of_false Recv.noConfusion fun hw => hw.2.2.2.1 hdead
  rw [if_neg fun hd => hdead (hip.mp hd.2)]
  by_cases hdata : sk.recvLowat < sockRbused sk.tcp
  · rw [if_pos hdata]
    exact iff_of_false (readIt_ne_waits _ _ _) fun hw => hw.2.2.2.2.1 hdata
  rw [if_neg hdata]
  rw [Bool.not_eq_true] at hdisc
  rcases herr : sk.soError with _ | err
  · exact iff_of_true rfl ⟨haddr, hdisc, hfin, hdead, hdata, rfl⟩
  · exact iff_of_false Recv.noConfusion fun hw => by cases hw.2.2.2.2.2

/-- When `recv` would wait. -/
theorem recv_waits_iff (h : sk.soAcceptconn = false) (len : Dword) :
    recv sk len = .waits ↔ ¬ EndSeen sk := by
  have hwaits := tcpReceive_waits_iff h len
  unfold recv EndSeen
  rcases herr : sk.soError with _ | err <;> dsimp only
  · rw [herr] at hwaits
    by_cases href : sk.soState.connRefused = true
    · simp [href]
    by_cases hcant : sk.soState.cantRcvMore = true
    · simp [href, hcant]
    rw [if_neg href, if_neg hcant, hwaits]
    constructor
    · rintro ⟨haddr, hdisc, hfin, hdead, hdata, -⟩
        (h | h | h | h | h | h | ⟨hrx, hf | ⟨hip, hs⟩⟩ | h)
      · exact h rfl
      · exact href h
      · exact hcant h
      · exact haddr h
      · exact Bool.false_ne_true (hdisc.symm.trans h)
      · exact hdead (.inl h)
      · exact hfin ⟨hf, hrx⟩
      · exact hdead (.inr ⟨hrx, hip, hs⟩)
      · exact hdata h
    · intro hend
      simp only [not_or] at hend
      obtain ⟨-, -, -, haddr, hdisc, hip, hend, hdata⟩ := hend
      refine ⟨haddr, Bool.not_eq_true _ ▸ hdisc, fun hf => hend ⟨hf.2, .inl hf.1⟩, ?_, hdata, rfl⟩
      rintro (h | ⟨hrx, hdead⟩)
      · exact hip h
      · exact hend ⟨hrx, .inr hdead⟩
  · simp

/-! ## Both -/

theorem readSelect_connected (h : sk.soAcceptconn = false) : readSelect sk = true ↔
    TcpState.lastack.code ≤ sk.tcp.s.state.code ∨ sk.recvLowat < sockRbused sk.tcp := by
  unfold readSelect
  rw [h, if_neg (by decide)]
  split_ifs with hs
  · exact iff_of_true rfl (.inl hs)
  · rw [decide_eq_true_iff, or_iff_right hs]

/-- On a connected socket `poll` agrees with `recv` under the condition above, and only then. -/
theorem pollAgrees_iff (h : sk.soAcceptconn = false) (hc : sk.soState.isConnecting = false) :
    ReportAgrees (sk, readSelect sk) ↔ RecvAgrees sk := by
  have hwait : ∀ len, recv sk len ≠ .waits ↔ EndSeen sk := fun len =>
    (not_congr (recv_waits_iff h len)).trans not_not
  have hdata : sk.recvLowat < sockRbused sk.tcp → EndSeen sk := fun hd => by simp [EndSeen, hd]
  constructor
  · intro hr
    refine ⟨fun hs => ?_, fun hfin => ?_⟩
    · exact (hwait 0).mp (hr.recv h hc ((readSelect_connected h).mpr (.inl hs)) 0)
    · exact (readSelect_connected h).mp (hr.ready h hc (.inl hfin))
  · rintro ⟨hend, hfin⟩
    refine ⟨fun hacc => ?_, fun _ _ hread len => ?_, fun _ _ hready => ?_⟩
    · cases h.symm.trans hacc
    · rw [hwait]
      exact ((readSelect_connected h).mp hread).elim hend hdata
    · exact (readSelect_connected h).mpr (hready.elim hfin .inr)

/-- What is signalled besides does not make `recv` wait. -/
theorem selectAgrees_of_recvAgrees (h : sk.soAcceptconn = false)
    (hc : sk.soState.isConnecting = false) (hr : RecvAgrees sk) :
    ReportAgrees (sk, decide (readSelect sk = true ∨ sockSignalled sk = true)) := by
  have hpoll := (pollAgrees_iff h hc).mpr hr
  refine ⟨fun hacc => ?_, fun _ _ hread len => ?_, fun _ _ hready => ?_⟩
  · cases h.symm.trans hacc
  · rcases of_decide_eq_true hread with hread | hsig
    · exact hpoll.recv h hc hread len
    · rw [Ne, recv_waits_iff h, not_not]
      unfold sockSignalled at hsig
      rw [decide_eq_true_iff] at hsig
      unfold EndSeen
      tauto
  · exact decide_eq_true (.inl (hpoll.ready h hc hready))

/-- On a listening socket `poll` reports what `listen_queued` sees. -/
theorem report_listening (h : sk.soAcceptconn = true) (b : Bool) :
    ReportAgrees (sk, b) ↔ (b = true ↔ CanAccept sk ∧ (Ready sk ∨ Quiet sk)) := by
  rw [← accepts_iff h]
  refine ⟨fun hr => hr.accepts h, fun hb => ⟨fun _ => hb, fun hacc => ?_, fun hacc => ?_⟩⟩ <;>
    cases h.symm.trans hacc

theorem queueAgrees_iff (h : sk.soAcceptconn = true) :
    ReportAgrees (sk, decide (readSelect sk = true ∨ sockSignalled sk = true)) ∧
      ReportAgrees (sk, readSelect sk) ↔ QueueAgrees sk := by
  have hread : readSelect sk = true ↔ Ready sk ∨ Stale sk := by
    unfold readSelect
    rw [if_pos h]
    exact listenQueued_iff
  rw [report_listening h, report_listening h, decide_eq_true_iff, hread]
  unfold QueueAgrees
  rw [← Bool.not_eq_true]
  by_cases hcan : CanAccept sk
  · simp only [hcan, true_and, true_implies, not_true, false_implies, and_true]
    by_cases hready : Ready sk
    · simp [hready]
    · simp only [hready, false_or]
      exact ⟨fun h => ⟨h.2.symm, fun hsig => h.1.mp (.inr hsig)⟩,
        fun h => ⟨⟨fun hs => hs.elim h.1.mpr h.2, fun hq => .inl (h.1.mp hq)⟩, h.1.symm⟩⟩
  · simp only [hcan, false_and, iff_false, not_or, false_implies, not_false_iff, true_implies,
      true_and]
    exact ⟨fun h => ⟨h.2.1, h.2.2, h.1.2⟩, fun h => ⟨⟨⟨h.1, h.2.1⟩, h.2.2⟩, h.1, h.2.1⟩⟩

/-- **The reports agree with the calls**: `select_s` and `poll` agree with `accept` and `recv` exactly
if the socket, as `still_connecting` leaves it, is one on which they do. -/
theorem agrees_iff (e : Tcp.Env) (sk : StreamSocket) :
    ReportAgrees (selectOne e sk) ∧ ReportAgrees (pollOne e sk) ↔
      let sk := (stillConnecting e sk).1
      (sk.soAcceptconn = true → QueueAgrees sk) ∧
      (sk.soAcceptconn = false → sk.soState.isConnecting = false → RecvAgrees sk) := by
  unfold selectOne pollOne
  dsimp only
  generalize (stillConnecting e sk).1 = sk
  rcases hacc : sk.soAcceptconn with _ | _
  · rcases hc : sk.soState.isConnecting with _ | _
    · simp only [Bool.false_eq_true, false_implies, true_implies, true_and]
      constructor
      · exact fun h => (pollAgrees_iff hacc hc).mp h.2
      · exact fun h => ⟨selectAgrees_of_recvAgrees hacc hc h, (pollAgrees_iff hacc hc).mpr h⟩
    · have hagrees : ∀ b, ReportAgrees (sk, b) := by
        refine fun b => ⟨fun h => ?_, fun _ h => ?_, fun _ h => ?_⟩
        · cases hacc.symm.trans h
        · cases hc.symm.trans h
        · cases hc.symm.trans h
      simp [hagrees]
  · simpa using queueAgrees_iff hacc

/-- The handshake of 0.0.0.2 and its FIN. -/
def finEvents : List Event :=
  [⟨{}, .packet (synPacket 2 1)⟩, ⟨{}, .packet (tcpPacket 2 1 10 1 16)⟩,
    ⟨{}, .packet (tcpPacket 2 1 10 1 17)⟩]

/-- A connection that the peer has closed before `accept`: `select_s` and `poll` do not report it. -/
theorem agrees_fails :
    let sk := (run step (fullStack fun _ => none) finEvents).stream 3 ⟨.ip4 0, 80⟩
    accept sk = .connection 0 ∧ (selectOne {} sk).2 = false ∧
      ¬ (ReportAgrees (selectOne {} sk) ∧ ReportAgrees (pollOne {} sk)) := by
  refine ⟨by decide, by decide, fun h => ?_⟩
  have := (h.1.accepts (by decide)).mpr ⟨0, by decide⟩
  exact absurd this (by decide)

end Watt32.Bsd
