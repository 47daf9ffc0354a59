import Watt32.Lib.Run
import Watt32.Udp.Handler

/-!
# Message boundaries

`udp_read`, `sock_fastread` and `sock_read` of `pctcp.c`, `sock_preread` of `pcbuf.c` and `udp_receive` of
`receive.c` on a connected UDP socket, together with the arrival of datagrams.

* `Inbox`: the socket, with the datagram its buffer is from and how much of it was read.
* `udpRead`, `sockRead`, `sockPreread`, `recvLoop`: the calls, with the pieces of datagrams they return.
* `OneHead`: a call returns the head of one datagram, as much as its buffer takes.
* `Whole`: when a call does.
* **`boundaries_iff`**: in a run all calls return heads exactly when all are `Whole`.
-/

namespace Watt32.Udp

open Machine
open Tcp (Packet packetOf)

/-! ## The source -/

/-- A socket. Its buffer holds what is left of the datagram `last`, of which `taken` bytes were read. -/
structure Inbox where
  s : UdpSocket
  last : List Byte := []
  taken : ℕ := 0

/-- A packet and what the handler takes from outside. -/
structure Arrival where
  g : Globals := {}
  broadcast : Bool := false
  ip : Packet

/-- The socket after the handler, with the data it has processed. -/
def Inbox.after (b : Inbox) (s : UdpSocket) : Option (List Byte) → Inbox
  | some data => if s.protoHandler ∨ data = [] then { b with s := s } else { s := s, last := data, taken := 0 }
  | none => { b with s := s }

/-- `_udp_handler` with the socket in the list. -/
def arrive (b : Inbox) (a : Arrival) : Inbox :=
  let h := udpHandler a.g a.broadcast a.ip [b.s]
  b.after (h.socks.headD b.s) h.handed

/-- Bytes from the datagram `of`, from number `start` on. -/
structure Piece where
  of : List Byte
  start : ℕ
  bytes : List Byte
  deriving DecidableEq

/-- `INT_MAX`. -/
def intMax : ℤ := 2 ^ 31 - 1

/-- `udp_read`. -/
def udpRead (b : Inbox) (maxlen : ℤ) : Inbox × Piece :=
  let maxlen := if maxlen < 0 then intMax else maxlen
  let len := if maxlen < b.s.rxData.length then maxlen.toNat else b.s.rxData.length
  ({ b with s := { b.s with rxData := b.s.rxData.drop len }, taken := b.taken + len },
    ⟨b.last, b.taken, b.s.rxData.take len⟩)

/-- `sock_preread`. -/
def sockPreread (b : Inbox) (len : ℕ) : Piece := ⟨b.last, b.taken, b.s.rxData.take len⟩

/-- A `tcp_tick`: what arrives, and whether the socket is still open. -/
structure Tick where
  arrivals : List Arrival := []
  ok : Bool := true

/-- What a tick brings. -/
def Tick.run (t : Tick) (b : Inbox) : Inbox := t.arrivals.foldl arrive b

/-- `sock_read`; when the ticks are used up, it still waits. -/
def sockRead (ticks : List Tick) (b : Inbox) (maxlen : ℕ) : Inbox × List Piece :=
  if (udpRead b maxlen).2.bytes = [] then
    match ticks with
    | [] => ((udpRead b maxlen).1, [])
    | t :: ticks =>
      if t.ok = false ∨ maxlen = 0 then (t.run (udpRead b maxlen).1, [])
      else sockRead ticks (t.run (udpRead b maxlen).1) maxlen
  else if maxlen - (udpRead b maxlen).2.bytes.length = 0 then ((udpRead b maxlen).1, [(udpRead b maxlen).2])
  else
    let r := sockRead ticks (udpRead b maxlen).1 (maxlen - (udpRead b maxlen).2.bytes.length)
    (r.1, (udpRead b maxlen).2 :: r.2)
termination_by ticks.length + maxlen
decreasing_by
  · simp only [List.length_cons]
    omega
  · have : 0 < (udpRead b maxlen).2.bytes.length := List.length_pos_iff.mpr ‹_›
    omega

/-- The flags of `recv`. -/
inductive RecvFlags
  | none | peek | waitall
  deriving DecidableEq, Repr

/-- A turn of the loop of `udp_receive`: its `tcp_tick`, and whether it ends otherwise. -/
structure Turn where
  tick : Tick := {}
  refused : Bool := false
  soError : Bool := false
  timedOut : Bool := false
  sigPending : Bool := false

/-- A call of `recv`: the arguments, the state of the socket and what happens meanwhile. -/
structure RecvCall where
  flags : RecvFlags := .none
  len : ℕ
  lowat : ℕ := 0
  nbio : Bool := false
  turns : List Turn := [{}]
  ticks : List Tick := []

/-- The loop of `udp_receive`, up to the bytes it returns. -/
def recvLoop (r : RecvCall) : List Turn → Inbox → Inbox × List Piece
  | [], b => (b, [])
  | t :: turns, b =>
    let b := t.tick.run b
    if t.refused then (b, [])
    else if t.tick.ok = false then (b, [])
    else if r.lowat < b.s.rxData.length then
      match r.flags with
      | .peek => (b, [sockPreread b r.len])
      | .waitall => sockRead r.ticks b r.len
      | .none => ((udpRead b r.len).1, [(udpRead b r.len).2])
    else if t.soError ∨ r.nbio ∨ t.timedOut ∨ t.sigPending then (b, [])
    else recvLoop r turns b

/-- What can happen to the socket. -/
inductive Event
  | packet (a : Arrival)
  | fastread (len : ℕ)
  | recv (r : RecvCall)

/-- An event: the socket after it, and the pieces it returns. -/
def handle (b : Inbox) : Event → Inbox × List Piece
  | .packet a => (arrive b a, [])
  | .fastread len => ((udpRead b len).1, [(udpRead b len).2])
  | .recv r => recvLoop r r.turns b

/-- One step. -/
def step (b : Inbox) (ev : Event) : Inbox := (handle b ev).1

/-- The length of the caller's buffer. -/
def Event.size : Event → ℕ
  | .packet _ => 0
  | .fastread len => len
  | .recv r => r.len

/-! ## The law -/

/-- The pieces are one head of a datagram, as much as a buffer of `size` bytes takes, or nothing. -/
def OneHead (size : ℕ) (pieces : List Piece) : Prop :=
  pieces.filter (fun p => p.bytes ≠ []) = [] ∨
    ∃ p, pieces.filter (fun p => p.bytes ≠ []) = [p] ∧ p.start = 0 ∧ p.bytes = p.of.take (min size p.of.length)

/-- A read of `size` bytes finds nothing, or a datagram of which nothing was read yet, and that was not cut off
where it should be read. -/
def Fresh (b : Inbox) (size : ℕ) : Prop :=
  b.s.rxData = [] ∨ size = 0 ∨ b.taken = 0 ∧ min size b.last.length ≤ b.s.maxRxData

/-- The ticks bring no data while the socket is open. -/
def Quiet : List Tick → Inbox → Prop
  | [], _ => True
  | t :: ticks, b => t.ok = true → (t.run b).s.rxData = [] ∧ Quiet ticks (t.run b)

/-- The socket when `udp_receive` reads from it. -/
def readsAt (r : RecvCall) : List Turn → Inbox → Option Inbox
  | [], _ => none
  | t :: turns, b =>
    if t.refused ∨ t.tick.ok = false then none
    else if r.lowat < (t.tick.run b).s.rxData.length then some (t.tick.run b)
    else if t.soError ∨ r.nbio ∨ t.timedOut ∨ t.sigPending then none
    else readsAt r turns (t.tick.run b)

/-- The calls that return heads: the read is fresh; a call with `MSG_WAITALL` gets its buffer full at once, or
nothing arrives while it waits. -/
def Whole (b : Inbox) : Event → Prop
  | .packet _ => True
  | .fastread len => Fresh b len
  | .recv r => ∀ b' ∈ readsAt r r.turns b, Fresh b' r.len ∧
      (r.flags = .waitall → b'.s.rxData.length < r.len → Quiet r.ticks (udpRead b' r.len).1)

/-- The buffer holds what is left of the last datagram. -/
structure Inbox.Sound (b : Inbox) : Prop where
  rxData : b.s.rxData = (b.last.take b.s.maxRxData).drop b.taken
  handler : b.s.protoHandler = false

/-! ## Arrivals -/

section Arrive

variable {g : Globals} {bcast : Bool} {ip : Packet} {socks : List UdpSocket} {s : UdpSocket} {b : Inbox}

/-- The receive side of a socket. -/
def UdpSocket.box (s : UdpSocket) : List Byte × ℕ × Bool := (s.rxData, s.maxRxData, s.protoHandler)

theorem map_box_modify {f : UdpSocket → UdpSocket} (hf : ∀ s, (f s).box = s.box) (i : ℕ) :
    (socks.modify i f).map UdpSocket.box = socks.map UdpSocket.box := by
  apply List.ext_getElem?
  intro j
  rw [List.getElem?_map, List.getElem?_map, List.getElem?_modify]
  cases socks[j]? with
  | none => rfl
  | some s =>
    simp only [Option.map_eq_map, Option.map_some, Option.some_inj]
    split_ifs
    · exact hf s
    · rfl

theorem takePeer_box : (takePeer bcast ip s).box = s.box := by
  unfold takePeer
  split_ifs <;> rfl

/-- Looking for the socket leaves what was received alone. -/
theorem udpDemux_box : (udpDemux g bcast ip socks).socks.map UdpSocket.box = socks.map UdpSocket.box := by
  unfold udpDemux
  split
  · split_ifs
    · rfl
    · dsimp only
      apply map_box_modify
      exact fun _ => rfl
  · split
    · dsimp only
      apply map_box_modify
      exact fun _ => takePeer_box
    · split <;> rfl

/-- A list with one socket. -/
theorem demux_single (g : Globals) (bcast : Bool) (ip : Packet) (s : UdpSocket) : ∃ s', (udpDemux g bcast ip [s]).socks = [s'] ∧ s'.box = s.box := by
  have hmap : (udpDemux g bcast ip [s]).socks.map UdpSocket.box = [s].map UdpSocket.box := udpDemux_box
  rw [List.map_singleton, List.map_eq_singleton_iff] at hmap
  exact hmap

/-- What the handler does to a socket that is alone in the list. -/
theorem udpHandler_single {a : Arrival} : ∃ s', s'.box = s.box ∧
    let h := udpHandler a.g a.broadcast a.ip [s]
    (h.socks = [s'] ∧ h.handed = none ∨ ∃ data, h.socks = [processUser data s'] ∧ h.handed = some data) := by
  unfold udpHandler
  dsimp only
  split_ifs
  · exact ⟨s, rfl, .inl ⟨rfl, rfl⟩⟩
  · exact ⟨s, rfl, .inl ⟨rfl, rfl⟩⟩
  · obtain ⟨s', hsocks, hbox⟩ := demux_single a.g (ipBcast a.g a.broadcast a.ip) a.ip s
    refine ⟨s', hbox, ?_⟩
    rw [hsocks]
    split
    · exact .inl ⟨rfl, rfl⟩
    · rename_i i _
      cases i with
      | zero =>
        split_ifs
        · exact .inr ⟨_, rfl, rfl⟩
        · exact .inl ⟨rfl, rfl⟩
      | succ i => exact .inl ⟨rfl, rfl⟩

/-- A datagram replaces what is in the buffer. -/
theorem Inbox.Sound.arrive (h : b.Sound) (a : Arrival) : (arrive b a).Sound := by
  obtain ⟨s', hbox, hcases⟩ := udpHandler_single (s := b.s) (a := a)
  have hrx : s'.rxData = b.s.rxData := congrArg (fun t : List Byte × ℕ × Bool => t.1) hbox
  have hmax : s'.maxRxData = b.s.maxRxData := congrArg (fun t : List Byte × ℕ × Bool => t.2.1) hbox
  have hproto : s'.protoHandler = b.s.protoHandler := congrArg (fun t : List Byte × ℕ × Bool => t.2.2) hbox
  unfold Udp.arrive
  dsimp only
  rcases hcases with ⟨hsocks, hhanded⟩ | ⟨data, hsocks, hhanded⟩
  · rw [hsocks, hhanded, List.headD_cons]
    exact ⟨by rw [Inbox.after, hrx, hmax]; exact h.rxData, hproto.trans h.handler⟩
  · have hp : s'.protoHandler = false := hproto.trans h.handler
    rw [hsocks, hhanded, List.headD_cons]
    by_cases hdata : data = []
    · have hproc : processUser data s' = s' := if_pos (.inr hdata)
      have hafter : b.after s' (some data) = { b with s := s' } := if_pos (.inr hdata)
      rw [hproc, hafter]
      exact ⟨by rw [hrx, hmax]; exact h.rxData, hp⟩
    · have hstore : ¬ (s'.protoHandler = true ∨ data = []) := by
        rw [hp]
        simp [hdata]
      have hproc : processUser data s' = { s' with rxData := data.take s'.maxRxData } := if_neg hstore
      have hafter : b.after { s' with rxData := data.take s'.maxRxData } (some data) =
          { s := { s' with rxData := data.take s'.maxRxData }, last := data, taken := 0 } := if_neg hstore
      rw [hproc, hafter]
      exact ⟨rfl, hp⟩

theorem Inbox.Sound.tick (h : b.Sound) (t : Tick) : (t.run b).Sound := by
  unfold Tick.run
  induction t.arrivals generalizing b with
  | nil => exact h
  | cons a arrivals ih => exact ih (h.arrive a)

end Arrive

/-! ## Reading -/

section Reading

variable {b : Inbox} {size len : ℕ}

theorem udpRead_piece : (udpRead b len).2 = ⟨b.last, b.taken, b.s.rxData.take len⟩ := by
  unfold udpRead
  rw [if_neg (by omega)]
  dsimp only
  split_ifs with h
  · rw [Int.toNat_natCast]
  · rw [List.take_length, List.take_of_length_le (by omega)]

theorem udpRead_rxData : (udpRead b len).1.s.rxData = b.s.rxData.drop len := by
  unfold udpRead
  rw [if_neg (by omega)]
  dsimp only
  split_ifs with h
  · rw [Int.toNat_natCast]
  · rw [List.drop_length, List.drop_eq_nil_of_le (by omega)]

theorem Inbox.Sound.read (h : b.Sound) (maxlen : ℤ) : (udpRead b maxlen).1.Sound := by
  refine ⟨?_, h.handler⟩
  unfold udpRead
  dsimp only
  rw [h.rxData, List.drop_drop]

theorem Inbox.Sound.sockRead (h : b.Sound) (ticks : List Tick) (maxlen : ℕ) : (sockRead ticks b maxlen).1.Sound := by
  induction ticks, b, maxlen using sockRead.induct with
  | case1 b maxlen hempty =>
    rw [Udp.sockRead, if_pos hempty]
    exact h.read _
  | case2 b maxlen hempty t ticks hend =>
    rw [Udp.sockRead, if_pos hempty, if_pos hend]
    exact (h.read _).tick t
  | case3 b maxlen hempty t ticks hend ih =>
    rw [Udp.sockRead, if_pos hempty, if_neg hend]
    exact ih ((h.read _).tick t)
  | case4 ticks b maxlen hsome hfull =>
    unfold Udp.sockRead
    rw [if_neg hsome, if_pos hfull]
    exact h.read _
  | case5 ticks b maxlen hsome hfull ih =>
    unfold Udp.sockRead
    rw [if_neg hsome, if_neg hfull]
    exact ih (h.read _)

theorem Inbox.Sound.recvLoop (h : b.Sound) (r : RecvCall) (turns : List Turn) : (recvLoop r turns b).1.Sound := by
  induction turns generalizing b with
  | nil => exact h
  | cons t turns ih =>
    have ht := h.tick t.tick
    unfold Udp.recvLoop
    dsimp only
    split_ifs
    · exact ht
    · exact ht
    · cases r.flags with
      | none => exact ht.read _
      | peek => exact ht
      | waitall => exact ht.sockRead _ _
    · exact ht
    · exact ih ht

/-- **The buffer** always holds what is left of the last datagram. -/
theorem Inbox.Sound.step (h : b.Sound) (ev : Event) : (step b ev).Sound := by
  cases ev with
  | packet a => exact h.arrive a
  | fastread len => exact h.read _
  | recv r => exact h.recvLoop r r.turns

end Reading

/-! ## The law -/

section Law

variable {b : Inbox} {size : ℕ}

/-- The first `n` of at most `max` bytes are as many as there are exactly when `max` cuts off nothing. -/
theorem take_take_eq_iff (l : List Byte) (size max : ℕ) :
    (l.take max).take size = l.take (min size l.length) ↔ min size l.length ≤ max := by
  rw [List.take_take]
  constructor
  · intro h
    have := congrArg List.length h
    rw [List.length_take, List.length_take] at this
    omega
  · intro h
    by_cases hs : size ≤ max
    · rw [min_eq_left hs]
      exact (List.take_eq_take_iff).mpr (by omega)
    · exact (List.take_eq_take_iff).mpr (by omega)

/-- **One read** returns a head exactly when it is fresh. -/
theorem oneHead_iff_fresh (h : b.Sound) :
    OneHead size [⟨b.last, b.taken, b.s.rxData.take size⟩] ↔ Fresh b size := by
  unfold OneHead Fresh
  by_cases hempty : b.s.rxData.take size = []
  · have hfilter : [(⟨b.last, b.taken, b.s.rxData.take size⟩ : Piece)].filter (fun p => p.bytes ≠ []) = [] := by
      simp [hempty]
    refine iff_of_true (.inl hfilter) ?_
    rcases List.take_eq_nil_iff.mp hempty with hsize | hrx
    · exact .inr (.inl hsize)
    · exact .inl hrx
  · have hfilter : [(⟨b.last, b.taken, b.s.rxData.take size⟩ : Piece)].filter (fun p => p.bytes ≠ []) =
        [⟨b.last, b.taken, b.s.rxData.take size⟩] := by
      simp [hempty]
    have hrx : b.s.rxData ≠ [] := fun h => hempty (by rw [h, List.take_nil])
    have hsize : size ≠ 0 := fun h => hempty (by rw [h, List.take_zero])
    rw [hfilter, or_iff_right (List.cons_ne_nil _ _), or_iff_right hrx, or_iff_right hsize]
    constructor
    · rintro ⟨p, hp, hstart, hbytes⟩
      obtain rfl := List.head_eq_of_cons_eq hp
      dsimp only at hstart hbytes
      rw [h.rxData, hstart, List.drop_zero, take_take_eq_iff] at hbytes
      exact ⟨hstart, hbytes⟩
    · rintro ⟨hstart, hle⟩
      refine ⟨_, rfl, hstart, ?_⟩
      dsimp only
      rw [h.rxData, hstart, List.drop_zero, take_take_eq_iff]
      exact hle

/-- A socket with an empty buffer that waits for more returns nothing exactly when it is quiet. -/
theorem sockRead_eq_nil (ticks : List Tick) (hempty : b.s.rxData = []) (hsize : size ≠ 0) :
    (sockRead ticks b size).2 = [] ↔ Quiet ticks b := by
  have hpiece : ∀ b' : Inbox, b'.s.rxData = [] → (udpRead b' size).2.bytes = [] := fun b' h => by
    rw [udpRead_piece, h, List.take_nil]
  have hsame : ∀ b' : Inbox, b'.s.rxData = [] → (udpRead b' size).1 = b' := by
    rintro ⟨⟨⟩, _, _⟩ h
    dsimp only at h
    subst h
    unfold udpRead
    simp only [List.length_nil, List.drop_nil]
    rw [if_neg (by omega)]
    rfl
  induction ticks generalizing b with
  | nil =>
    unfold sockRead
    rw [if_pos (hpiece b hempty)]
    exact iff_of_true rfl trivial
  | cons t ticks ih =>
    unfold sockRead Quiet
    rw [if_pos (hpiece b hempty)]
    dsimp only
    rw [hsame b hempty]
    by_cases hok : t.ok = false
    · rw [if_pos (.inl hok)]
      refine iff_of_true rfl fun h => ?_
      rw [hok] at h
      cases h
    · rw [if_neg (by tauto)]
      have hok' : t.ok = true := by simpa using hok
      simp only [hok', forall_const]
      by_cases hrx : (t.run b).s.rxData = []
      · exact (ih hrx).trans (and_iff_right hrx).symm
      · refine iff_of_false ?_ fun h => hrx h.1
        have hbytes : (udpRead (t.run b) size).2.bytes ≠ [] := by
          rw [udpRead_piece]
          simp [hrx, hsize]
        unfold sockRead
        rw [if_neg hbytes]
        split_ifs <;> simp

/-- `sock_read` returns no empty pieces. -/
theorem sockRead_bytes (ticks : List Tick) (b : Inbox) (maxlen : ℕ) :
    ∀ p ∈ (sockRead ticks b maxlen).2, p.bytes ≠ [] := by
  induction ticks, b, maxlen using sockRead.induct with
  | case1 b maxlen hempty =>
    rw [sockRead, if_pos hempty]
    simp
  | case2 b maxlen hempty t ticks hend =>
    rw [sockRead, if_pos hempty, if_pos hend]
    simp
  | case3 b maxlen hempty t ticks hend ih =>
    rw [sockRead, if_pos hempty, if_neg hend]
    exact ih
  | case4 ticks b maxlen hsome hfull =>
    unfold sockRead
    rw [if_neg hsome, if_pos hfull]
    exact fun p hp => List.mem_singleton.mp hp ▸ hsome
  | case5 ticks b maxlen hsome hfull ih =>
    unfold sockRead
    rw [if_neg hsome, if_neg hfull]
    exact List.forall_mem_cons.mpr ⟨hsome, ih⟩

/-- A call with `MSG_WAITALL` on a buffer with data. -/
theorem oneHead_sockRead (h : b.Sound) (hsome : b.s.rxData ≠ []) (ticks : List Tick) :
    OneHead size (sockRead ticks b size).2 ↔
      Fresh b size ∧ (b.s.rxData.length < size → Quiet ticks (udpRead b size).1) := by
  by_cases hsize : size = 0
  · have hnone : (sockRead ticks b size).2 = [] := by
      unfold sockRead
      rw [if_pos (by rw [udpRead_piece, hsize, List.take_zero])]
      cases ticks with
      | nil => rfl
      | cons t ticks =>
        dsimp only
        rw [if_pos (.inr hsize)]
    rw [hnone]
    exact iff_of_true (.inl rfl) ⟨.inr (.inl hsize), fun hlt => absurd hlt (by omega)⟩
  · have hbytes : (udpRead b size).2.bytes ≠ [] := by
      rw [udpRead_piece]
      simp [hsome, hsize]
    have hlen : (udpRead b size).2.bytes.length = min size b.s.rxData.length := by
      rw [udpRead_piece, List.length_take]
    rw [← oneHead_iff_fresh h, ← udpRead_piece]
    unfold sockRead
    rw [if_neg hbytes]
    by_cases hfull : size - (udpRead b size).2.bytes.length = 0
    · rw [if_pos hfull]
      refine (and_iff_left fun hlt => absurd hlt ?_).symm
      rw [hlen] at hfull
      omega
    · have hlt : b.s.rxData.length < size := by
        rw [hlen] at hfull
        omega
      have hrest : (udpRead b size).1.s.rxData = [] := by
        rw [udpRead_rxData]
        exact List.drop_eq_nil_of_le hlt.le
      rw [if_neg hfull, forall_prop_of_true hlt, ← sockRead_eq_nil ticks hrest hfull]
      dsimp only
      have hall := sockRead_bytes ticks (udpRead b size).1 (size - (udpRead b size).2.bytes.length)
      generalize (sockRead ticks (udpRead b size).1 (size - (udpRead b size).2.bytes.length)).2 = rest at hall
      have hfilter : ((udpRead b size).2 :: rest).filter (fun p => p.bytes ≠ []) = (udpRead b size).2 :: rest :=
        List.filter_eq_self.mpr (by simpa [hbytes] using hall)
      have hfirst : [(udpRead b size).2].filter (fun p => p.bytes ≠ []) = [(udpRead b size).2] := by
        simp [hbytes]
      unfold OneHead
      rw [hfilter, hfirst]
      constructor
      · rintro (hno | ⟨p, hp, hhead⟩)
        · cases hno
        · obtain ⟨rfl, rfl⟩ := List.cons_eq_cons.mp hp
          exact ⟨.inr ⟨_, rfl, hhead⟩, rfl⟩
      · rintro ⟨hone, rfl⟩
        exact hone

/-- **`udp_receive`** returns a head exactly when the read is `Whole`. -/
theorem oneHead_recvLoop (h : b.Sound) (r : RecvCall) (turns : List Turn) :
    OneHead r.len (recvLoop r turns b).2 ↔ ∀ b' ∈ readsAt r turns b, Fresh b' r.len ∧
      (r.flags = .waitall → b'.s.rxData.length < r.len → Quiet r.ticks (udpRead b' r.len).1) := by
  have hnothing : OneHead r.len [] := .inl rfl
  induction turns generalizing b with
  | nil => exact iff_of_true hnothing nofun
  | cons t turns ih =>
    have ht := h.tick t.tick
    unfold recvLoop readsAt
    dsimp only
    by_cases hrefused : t.refused = true
    · rw [if_pos hrefused, if_pos (.inl hrefused)]
      exact iff_of_true hnothing nofun
    by_cases hok : t.tick.ok = false
    · rw [if_neg hrefused, if_pos hok, if_pos (.inr hok)]
      exact iff_of_true hnothing nofun
    rw [if_neg hrefused, if_neg hok, if_neg (not_or.mpr ⟨hrefused, hok⟩)]
    by_cases hdata : r.lowat < (t.tick.run b).s.rxData.length
    · rw [if_pos hdata, if_pos hdata]
      have hsome : (t.tick.run b).s.rxData ≠ [] := by
        intro hnil
        rw [hnil] at hdata
        cases hdata
      simp only [Option.mem_some_iff, forall_eq']
      cases hflags : r.flags with
      | none =>
        dsimp only
        rw [udpRead_piece, oneHead_iff_fresh ht]
        exact (and_iff_left nofun).symm
      | peek =>
        refine (oneHead_iff_fresh ht).trans ?_
        exact (and_iff_left nofun).symm
      | waitall =>
        refine (oneHead_sockRead ht hsome r.ticks).trans ?_
        simp only [forall_const]
    · rw [if_neg hdata, if_neg hdata]
      by_cases hend : t.soError = true ∨ r.nbio = true ∨ t.timedOut = true ∨ t.sigPending = true
      · rw [if_pos hend, if_pos hend]
        exact iff_of_true hnothing nofun
      · rw [if_neg hend, if_neg hend]
        exact ih ht

/-- **One event** returns a head exactly when it is `Whole`. -/
theorem oneHead_iff_whole (h : b.Sound) (ev : Event) : OneHead ev.size (handle b ev).2 ↔ Whole b ev := by
  cases ev with
  | packet a => exact iff_of_true (.inl rfl) trivial
  | fastread len =>
    unfold handle Whole
    dsimp only
    rw [udpRead_piece]
    exact oneHead_iff_fresh h
  | recv r => exact oneHead_recvLoop h r r.turns

end Law

/-- A connected socket with nothing received. -/
def connected (s : UdpSocket) : Inbox := { s := { s with rxData := [], protoHandler := false } }

/-- **Message boundaries**: in a run of arrivals and reads every call returns the head of one datagram, as much
as its buffer takes, exactly when every read is `Whole`. -/
theorem boundaries_iff (s : UdpSocket) (evs : List Event) :
    Always step (fun b ev => OneHead ev.size (handle b ev).2) (connected s) evs ↔
      Always step Whole (connected s) evs := by
  have hsound : (connected s).Sound := ⟨by simp [connected], rfl⟩
  apply always_iff_of_invariant (I := Inbox.Sound) _ _ evs hsound
  · exact fun b ev h _ => h.step ev
  · exact fun b ev h => oneHead_iff_whole h ev

/-- A datagram of two bytes to port 7. -/
def twoBytes : Packet := packetOf (header4 ++ [4, 0, 0, 7, 0, 10, 0, 0, 7, 8])

/-- Two reads of one byte: the second one returns the tail. -/
theorem tail_returned : ¬ Always step (fun b ev => OneHead ev.size (handle b ev).2) (connected (echoSocket false))
    [.packet { ip := twoBytes }, .fastread 1, .recv { len := 1 }] := by
  intro h
  have htail : (handle (run step (connected (echoSocket false)) [.packet { ip := twoBytes }, .fastread 1])
      (.recv { len := 1 })).2 = [⟨[7, 8], 1, [8]⟩] := by decide +kernel
  have hone := h.2.2.1
  change OneHead _ (handle (run step (connected (echoSocket false)) [.packet { ip := twoBytes }, .fastread 1])
    (.recv { len := 1 })).2 at hone
  rw [htail] at hone
  rcases hone with hno | ⟨p, hp, hstart, _⟩
  · exact absurd hno (by decide)
  · obtain rfl : (⟨[7, 8], 1, [8]⟩ : Piece) = p := List.head_eq_of_cons_eq hp
    cases hstart

end Watt32.Udp
