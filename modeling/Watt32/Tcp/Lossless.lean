import Watt32.Tcp.Acked
import Watt32.Tcp.EndToEnd

/-!
# No byte is lost

The network of `EndToEnd`, which makes up no acknowledgments: each one was sent by the peer.

* `stepEnd_next`: what an end has received in order only grows while it receives.
* `Confirms`: the invariant of one direction, the numbers an end sends and the number its peer counts.
* **`no_byte_lost`**: as long as the far end receives, the bytes taken over from the near application are the
  first bytes that the far application got and then those in the transmit buffer.
-/

namespace Watt32.Tcp

open Machine Mem

/-! ## The receiving end -/

section Receiving

variable {b : RxBuf} {seg : InSegment} {data : ℕ} {len diff : Dword} {flags : TcpFlags}

theorem dataInOrder_grows (hb : b.Bounded) (hfits : (len - diff).toNat ≤ b.room) :
    b.rxDatalen.toNat ≤ (dataInOrder none b seg data len diff).rxDatalen.toNat := by
  have hroom := hb.room_eq
  have hmax := hb.max
  have hle := hb.len
  unfold dataInOrder
  dsimp only
  split_ifs with hc
  · show _ ≤ (b.rxDatalen + (len - diff)).toNat
    rw [BitVec.toNat_add_of_lt (by omega)]
    omega
  · rw [not_or] at hc
    rw [catchUp_rxDatalen hb hc.1 hfits]
    omega

theorem processRx_grows (hb : b.Bounded) :
    b.rxDatalen.toNat ≤ (processRx none b seg flags).rxDatalen.toNat := by
  have hb₀ : { b with copies := [] : RxBuf }.Bounded := ⟨hb.max, hb.len, hb.block⟩
  unfold processRx
  dsimp only
  cases ha : arrival { b with copies := [] } seg flags with
  | ignored => exact le_rfl
  | outOfOrder =>
    dsimp only
    rw [dataOutOfOrder_frame.2]
  | inOrder =>
    obtain ⟨-, -, hl, hfits⟩ := arrival_inOrder_iff.mp ha
    rw [← toNat_inOrder_len hl] at hfits
    exact dataInOrder_grows hb₀ hfits

/-- **What was received in order** stays received. -/
theorem stepEnd_next {S : List Byte} {q₀ : Dword} {r : Reading} {ev : Event} (h : StreamInv S q₀ r)
    (hlate : ¬ r.c.s.state.early) (hreset : ∀ seg, ev.op = .segment seg → ¬ ResetsServer ev.e r.c seg)
    (hrecv : (stepEnd r ev).c.s.state.receiving) : r.next ≤ (stepEnd r ev).next := by
  by_cases hread : ∃ maxlen, ev.op = .read maxlen
  · obtain ⟨maxlen, hop⟩ := hread
    have hlen : (readLen r.c.s maxlen).toNat ≤ r.c.s.rx.rxDatalen.toNat :=
      readLen_toNat (by have := h.bounded.max; have := h.bounded.len; omega)
    have hsub : (r.c.s.rx.rxDatalen - readLen r.c.s maxlen).toNat = _ :=
      BitVec.toNat_sub_of_le (BitVec.le_def.mpr hlen)
    rw [stepEnd_read hop]
    unfold Reading.next stepReading stepRx handedBy
    dsimp only
    rw [tcpRead_rx, tcpRead_bytes]
    split_ifs
    · rw [readRx_frame.1, hsub, List.length_append, length_slice]
      omega
    · simp
  rw [not_exists] at hread
  unfold Reading.next
  rw [stepEnd_handed hread]
  refine Nat.add_le_add_left ?_ _
  by_cases hseg : ∃ seg, ev.op = .segment seg
  · obtain ⟨seg, hop⟩ := hseg
    have hin : Intake seg r.c.s (stepEnd r ev).c.s := by
      unfold stepEnd stepConn
      rw [hop]
      exact tcpHandler_intake h.handler hlate (hreset seg hop)
    cases hin with
    | kept hk => rw [hk]
    | taken _ hk =>
      rw [hk]
      exact processRx_grows h.bounded
    | ended _ _ hs => exact absurd hrecv hs
    | reset _ _ _ hs => exact absurd hrecv hs
  · rw [not_exists] at hseg
    exact (congrArg (fun b : RxBuf => b.rxDatalen.toNat) (stepConn_rx ev hlate hseg hread)).ge

end Receiving

/-! ## One direction -/

/-- The segment acknowledges what one of the peer's segments acknowledged. -/
def AckedBy (c : Conn) (seg : InSegment) : Prop :=
  ∃ k ∈ c.calls, ∃ o ∈ k.segs, o.hdr.flags.ack ∧ o.hdr.acknum = seg.hdr.acknum

instance (c : Conn) (seg : InSegment) : Decidable (AckedBy c seg) := by
  unfold AckedBy; infer_instance

/-- Between a sending end and its peer: the numbers the peer sends do not pass what it has received, nor
does the number the sending end counts. -/
structure Confirms (c : Conn) (r : Reading) : Prop where
  whole : c.half.Whole
  acks : r.c.s.state.receiving → ∀ k ∈ r.c.calls, ∀ o ∈ k.segs, o.hdr.flags.ack →
    ∃ m ≤ r.next, o.hdr.acknum = c.iss + 1 + BitVec.ofNat 32 m
  count : r.c.s.state.receiving → c.acked ≤ r.next

section Direction

variable {c : Conn} {r : Reading} {ev : Event} {seg : InSegment} {acknum : Dword} {m n : ℕ}

theorem ackedBy_idle (h : c.half.pending = []) : ackedBy c acknum = c.acked := by
  have hlen := pending_eq_nil.mp h
  unfold ackedBy
  split_ifs with hw
  · simp only [ackInWindow, hlen, decide_eq_true_eq, BitVec.le_def] at hw
    rw [Nat.le_zero.mp hw.2]
    rfl
  · rfl

/-- An acknowledgment of what the peer has received. -/
theorem ackedBy_le (ht : c.half.Transmits) (hacknum : acknum = c.iss + 1 + BitVec.ofNat 32 m) (hm : m ≤ n)
    (hle : c.acked ≤ n) (hn : n ≤ c.accepted.length) (hwrap : c.accepted.length < 2 ^ 32) :
    ackedBy c acknum ≤ n := by
  have hpend : c.s.tx.txDatalen.toNat = c.accepted.length - c.acked := by
    have := congrArg List.length ht.pending
    rwa [List.length_drop, Conn.half, length_slice] at this
  have hnext : c.s.tx.sendNext = c.iss + 1 + BitVec.ofNat 32 c.acked := ht.sendNext
  have hdiff : acknum - c.s.tx.sendNext = BitVec.ofNat 32 m - BitVec.ofNat 32 c.acked := by
    rw [hacknum, hnext]
    ring
  unfold ackedBy
  split_ifs with hw
  · simp only [ackInWindow, decide_eq_true_eq, BitVec.le_def, hpend] at hw
    have hwin := hw.2
    have hm' : m % 2 ^ 32 = m := Nat.mod_eq_of_lt (by omega)
    have hacked : c.acked % 2 ^ 32 = c.acked := Nat.mod_eq_of_lt (by omega)
    rw [hdiff, BitVec.toNat_sub, BitVec.toNat_ofNat, BitVec.toNat_ofNat, hm', hacked] at hwin ⊢
    omega
  · exact hle

/-- **A step of the sending end.** -/
theorem Confirms.sender (h : Confirms c r) (hc : Carrier c)
    (hreset : ∀ seg, ev.op = .segment seg → ¬ ResetsServer ev.e c seg)
    (hack : ∀ seg, ev.op = .segment seg → seg.hdr.flags.ack → AckedBy r.c seg)
    (hgot : r.c.s.state.receiving → r.next ≤ c.accepted.length) (hwrap : c.accepted.length < 2 ^ 32)
    (hiss : (stepConn c ev).iss = c.iss) : Confirms (stepConn c ev) r := by
  refine ⟨h.whole.moves hc.carrying (stepConn_moves_noRestart ev hreset), ?_, fun hr => ?_⟩
  · rw [hiss]
    exact h.acks
  rcases stepConn_acked ev hc.late hreset with hkept | ⟨seg, hop, hcounted⟩
  · exact hkept ▸ h.count hr
  cases hcounted with
  | kept hk => exact hk ▸ h.count hr
  | acked hflag hk =>
    rw [hk]
    rcases hc.carrying.pending with hnil | ht
    · exact (ackedBy_idle hnil).trans_le (h.count hr)
    rcases hflag with hflag | hfin
    · obtain ⟨k, hk, o, ho, hoflag, hnum⟩ := hack seg hop hflag
      obtain ⟨m, hm, hmnum⟩ := h.acks hr k hk o ho hoflag
      exact ackedBy_le ht (hnum ▸ hmnum) hm (h.count hr) (hgot hr) hwrap
    · exact (ackedBy_idle (hc.carrying.sent (.inl hfin))).trans_le (h.count hr)

/-- **A step of the peer.** -/
theorem Confirms.peer (h : Confirms c r) (hr : Carrier r.c) (hd : Delivered c.accepted (c.iss + 1) r)
    (hd' : Delivered c.accepted (c.iss + 1) (stepEnd r ev))
    (hreset : ∀ seg, ev.op = .segment seg → ¬ ResetsServer ev.e r.c seg) : Confirms c (stepEnd r ev) := by
  have hback := ((stepConn_moves_noRestart ev hreset).late hr.late).2
  have hgrow : (stepEnd r ev).c.s.state.receiving → r.next ≤ (stepEnd r ev).next := fun hs =>
    stepEnd_next (hd.streams (hback hs)) hr.late hreset hs
  refine ⟨h.whole, fun hs k hk o ho hflag => ?_, fun hs => (h.count (hback hs)).trans (hgrow hs)⟩
  -- a call sees `recv_next` from before or after the step, unless the step ends the data
  let A : Dword → Prop := fun x => x = r.c.s.rx.recvNext ∨ x = (stepEnd r ev).c.s.rx.recvNext ∨
    ¬ (stepEnd r ev).c.s.state.receiving
  have htrim : r.c.s.trim.Plain A := ⟨hr.trim.syn, hr.trim.secret, hr.trim.handler, .inl rfl⟩
  have hplain := (Plain.refl (e := ev.e) htrim).step ev hr.late
    ⟨.inr (.inl rfl), fun hshut _ => .inr (.inr hshut)⟩
  rcases hplain.calls k hk with hold | hnew
  · obtain ⟨m, hm, hnum⟩ := h.acks (hback hs) k hold o ho hflag
    exact ⟨m, hm.trans (hgrow hs), hnum⟩
  rcases hnew.acknum ho with hnum | hnum | hshut
  · exact ⟨r.next, hgrow hs, hnum.trans (hd.streams (hback hs)).integrity.recvNext⟩
  · exact ⟨_, le_rfl, hnum.trans (hd'.streams hs).integrity.recvNext⟩
  · exact absurd hs hshut

end Direction

/-! ## Both directions -/

/-- Segments with the ACK flag acknowledge what the peer acknowledged. -/
def AckOk (peer : Conn) : Op → Prop
  | .segment seg => seg.hdr.flags.ack → AckedBy peer seg
  | _ => True

instance (peer : Conn) : DecidablePred (AckOk peer)
  | .segment _ => inferInstanceAs (Decidable (_ → _))
  | .read _ | .write _ | .flush | .flushnext | .noflush | .close | .abort | .retransmit =>
    .isTrue trivial

/-- An event of a network that makes up neither data nor acknowledgments, with both streams short of the
wrap. -/
structure LinkHonest (l : Link) (d : Side × Event) : Prop extends LinkOk l d where
  acks : AckOk (l.there d.1).c d.2.op
  numbers : NoWrap (l.there d.1).c (l.here d.1).c

instance (l : Link) (d : Side × Event) : Decidable (LinkHonest l d) :=
  decidable_of_iff (LinkOk l d ∧ AckOk (l.there d.1).c d.2.op ∧ NoWrap (l.there d.1).c (l.here d.1).c)
    ⟨fun ⟨h₁, h₂, h₃⟩ => ⟨h₁, h₂, h₃⟩, fun ⟨h₁, h₂, h₃⟩ => ⟨h₁, h₂, h₃⟩⟩

/-- Nothing is acknowledged yet. -/
structure Unacked (r : Reading) (peer : Conn) : Prop where
  count : r.c.acked = 0
  acks : ∀ k ∈ r.c.calls, ∀ o ∈ k.segs, o.hdr.flags.ack → o.hdr.acknum = peer.iss + 1

/-- The bytes `tcp_write` took over at the side `d` are the first ones that the other application got and
then the pending ones. -/
def Link.Whole (l : Link) (d : Side) : Prop :=
  (l.there d).c.s.state.receiving → (l.here d).c.s.state ≠ .closed →
    (l.here d).c.accepted = (l.there d).got.take (l.here d).c.acked ++ (l.here d).c.half.pending

/-- The invariant of the system. -/
structure Link.Honest (l : Link) : Prop extends l.Inv where
  confirms : ∀ d, Confirms (l.here d).c (l.there d)

theorem Ready.confirms {r peer : Reading} (h : Ready r peer.c) (hu : Unacked r peer.c) (hup : Unacked peer r.c) :
    Confirms r.c peer := by
  refine ⟨fun _ => ⟨h.transmits.pending, h.transmits.acked⟩, fun _ k hk o ho hflag => ?_, fun _ => ?_⟩
  · exact ⟨0, Nat.zero_le _, by rw [hup.acks k hk o ho hflag]; simp⟩
  · rw [hu.count]
    exact Nat.zero_le _

/-- One event at an end, for both directions. -/
theorem Confirms.turn {r peer : Reading} {ev : Event} (hout : Confirms r.c peer) (hin : Confirms peer.c r)
    (hr : Carrier r.c) (hp : Carrier peer.c) (hd : Delivered peer.c.accepted (peer.c.iss + 1) r)
    (hd' : Delivered r.c.accepted (r.c.iss + 1) peer) (hts : ev.e.cfg.optTs = false) (hwrap : NoWrap r.c peer.c)
    (hwrap' : NoWrap peer.c r.c) (ha : ArrivalOk ev.e r.c peer.c ev.op) (hack : AckOk peer.c ev.op) :
    Confirms (stepEnd r ev).c peer ∧ Confirms peer.c (stepEnd r ev) := by
  have hreset : ∀ seg, ev.op = .segment seg → ¬ ResetsServer ev.e r.c seg := fun seg hop => by
    rw [hop] at ha
    exact ha.2
  have hacks : ∀ seg, ev.op = .segment seg → seg.hdr.flags.ack → AckedBy peer.c seg := fun seg hop => by
    rw [hop] at hack
    exact hack
  obtain ⟨-, hiss, -⟩ := hr.step hts hreset
  unfold NoWrap at hwrap'
  refine ⟨hout.sender hr hreset hacks (fun hs => ?_) (by omega) hiss, ?_⟩
  · have hgot := (hd'.streams hs).integrity.handed.length_le
    rwa [List.length_append, length_slice] at hgot
  · exact hin.peer hr hd (hr.deliver hp hd hwrap ha) hreset

theorem Link.Honest.step {l : Link} {d : Side × Event} (h : l.Honest) (hok : LinkHonest l d) :
    (stepLink l d).Honest := by
  have hnear := h.confirms .near
  have hfar := h.confirms .far
  refine ⟨h.toInv.step hok.toLinkOk, ?_⟩
  obtain ⟨⟨hcn, hcf⟩, hin, hout⟩ := h.toInv
  obtain ⟨⟨hts, hw, ha⟩, hack, hwrap⟩ := hok
  obtain ⟨side, ev⟩ := d
  cases side with
  | near =>
    obtain ⟨h₁, h₂⟩ := hnear.turn hfar hcn hcf hin hout hts hw hwrap ha hack
    exact fun | .near => h₁ | .far => h₂
  | far =>
    obtain ⟨h₁, h₂⟩ := hfar.turn hnear hcf hcn hout hin hts hw hwrap ha hack
    exact fun | .near => h₂ | .far => h₁

/-- The invariant gives the bytes of each side. -/
theorem Link.Honest.whole {l : Link} (h : l.Honest) (d : Side) : l.Whole d := by
  have hprefix : (l.there d).got <+: (l.here d).c.accepted := by
    cases d with
    | near => exact h.far.prefix_of
    | far => exact h.near.prefix_of
  intro hrecv hopen
  obtain ⟨hpend, hle⟩ := (h.confirms d).whole hopen
  have hcount : (l.here d).c.acked ≤ (l.there d).got.length := by
    have := (h.confirms d).count hrecv
    unfold Reading.got
    rwa [List.length_append, length_slice]
  obtain ⟨rest, hrest⟩ := hprefix
  have htake : (l.there d).got.take (l.here d).c.acked = (l.here d).c.accepted.take (l.here d).c.acked := by
    rw [← hrest, List.take_append_of_le_length hcount]
  rw [htake]
  exact ((List.take_append_drop _ _).symm.trans (congrArg _ hpend.symm) :)

/-- The handshake acknowledges no data. -/
theorem unacked_established : Unacked establishedLink.near establishedLink.far.c ∧
    Unacked establishedLink.far establishedLink.near.c := by
  refine ⟨⟨?_, ?_⟩, ⟨?_, ?_⟩⟩ <;> decide +kernel

/-- The byte back acknowledges all five. -/
example : (run stepLink establishedLink exchange).near.c.acked = 5 ∧
    (run stepLink establishedLink exchange).near.c.half.pending = [] := by decide +kernel

end Watt32.Tcp
