import Watt32.Tcp.Outstanding

/-!
# The handshake

With which numbers are SYNREC and ESTAB entered?

* `Half.Opening`: before ESTAB `send_next` is our initial number, and in SYNREC `recv_next` is
  behind the peer's.
* `handshakeLaw_iff`: one step.
* **`handshake_iff`**: a run whose peer keeps to one initial number is in order exactly if no SYN
  without ACK meets SYNSENT with another `recv_next`.
-/

namespace Watt32.Tcp

open Machine

variable {A : Allow} {e : Env} {c : Conn} {irs : Dword}

/-! ## The invariant -/

/-- The numbers of a connection that is being opened. -/
structure Half.Opening (irs : Dword) (h : Half) : Prop where
  sendNext : h.state.early → h.sendNext = h.iss
  recvNext : h.state = .synrec → h.recvNext = irs + 1

theorem Half.Opening.of_not_early {h : Half} (hs : ¬ h.state.early) : h.Opening irs :=
  ⟨fun he => absurd he hs, fun he => absurd (by simp [TcpState.early, he]) hs⟩

theorem Half.Opening.next {h h' : Half} (ho : h.Opening irs) (hn : h.Next A h')
    (hA : ∀ r, A.enter r → r = irs + 1) : h'.Opening irs := by
  cases hn with
  | rewind | grow | plain => exact ⟨ho.sendNext, ho.recvNext⟩
  | receive r hs => exact .of_not_early hs
  | ack k p q u hs =>
    refine .of_not_early ?_
    rcases hs with hs | hs | hs | hs <;> simp [TcpState.early, hs]
  | write data p hs => exact .of_not_early (by simp [TcpState.early, hs])
  | resolved hs =>
    exact ⟨fun _ => ho.sendNext (by simp [TcpState.early, hs]), fun he => by cases he⟩
  | enterSynrec r hs hr =>
    refine ⟨fun _ => ho.sendNext ?_, fun _ => hA r hr⟩
    rcases hs with hs | hs <;> simp [TcpState.early, hs]
  | reseed isn hs => exact ⟨fun _ => rfl, fun he => by rw [hs] at he; cases he⟩
  | finAgain hs => exact .of_not_early (by simp [TcpState.early, hs])
  | finAcked st b hs =>
    rcases hs with ⟨-, rfl⟩ | ⟨-, rfl⟩ <;> exact .of_not_early (by simp [TcpState.early])
  | establish | lastack | closeNow | closeLater | bothClosing | peerDone | shut =>
    exact .of_not_early (by simp [TcpState.early])

theorem Half.Opening.move {c' : Conn} (ho : c.half.Opening irs) (hm : Move A c c')
    (hA : ∀ r, A.enter r → r = irs + 1) : c'.half.Opening irs := by
  cases hm with
  | quiet h => rwa [h]
  | next h => exact ho.next h hA
  | call e u _ _ h => rw [h]; exact ⟨ho.sendNext, ho.recvNext⟩
  | abort n b u _ h => rw [h]; exact .of_not_early (by simp [TcpState.early])
  | restart _ h => rw [h]; exact ⟨fun _ => rfl, fun he => by cases he⟩

/-! ## One step -/

/-- Every SYN of the peer in the handshake has its initial number. -/
def PeerSyn (irs : Dword) (c : Conn) (ev : Event) : Prop :=
  ∀ seg c₁, ev.op = .segment seg → fsmEntry ev.e c seg = some c₁ → c₁.s.state.early →
    seg.hdr.flags.syn → seg.hdr.seqnum = irs

/-- SYNREC is entered with `recv_next` behind the peer's SYN, ESTAB also with `send_next` behind
ours. -/
def HandshakeLaw (irs : Dword) (c : Conn) (ev : Event) : Prop :=
  let c' := stepConn c ev
  (c.s.state ≠ .synrec → c'.s.state = .synrec → c'.s.rx.recvNext = irs + 1) ∧
    (c.s.state ≠ .estab → c'.s.state = .estab →
      c'.s.rx.recvNext = irs + 1 ∧ c'.s.tx.sendNext = c'.iss + 1)

/-- A SYN without ACK meets SYNSENT only with `recv_next` at the peer's initial number. -/
def HandshakeOk (irs : Dword) (c : Conn) (ev : Event) : Prop :=
  ∀ seg c₁, ev.op = .segment seg → fsmEntry ev.e c seg = some c₁ → c₁.s.state = .synsent →
    seg.hdr.flags.syn → seg.hdr.flags.ack = false → c₁.s.rx.recvNext = irs

theorem Half.Next.not_entered {h h' : Half} (hn : h.Next A h') (hA : ∀ r, ¬ A.enter r) :
    (h'.state = .synrec → h.state = .synrec) ∧ (h'.state = .estab → h.state = .estab) := by
  cases hn with
  | enterSynrec r _ hr | establish r _ hr => exact absurd hr (hA r)
  | finAcked st b hs => rcases hs with ⟨-, rfl⟩ | ⟨-, rfl⟩ <;> simp
  | rewind | grow | receive | plain | ack | write | reseed | finAgain => exact ⟨id, id⟩
  | resolved | lastack | closeNow | closeLater | bothClosing | peerDone | shut =>
    exact ⟨fun h => (by cases h), fun h => (by cases h)⟩

/-- Without a segment that enters them SYNREC and ESTAB are not entered. -/
theorem moves_not_entered {c' : Conn} (hm : Moves A c c') (hA : ∀ r, ¬ A.enter r) :
    (c'.s.state = .synrec → c.s.state = .synrec) ∧ (c'.s.state = .estab → c.s.state = .estab) := by
  refine moves_invariant (I := fun c' => (c'.half.state = .synrec → c.half.state = .synrec) ∧
    (c'.half.state = .estab → c.half.state = .estab)) (fun c₁ c₂ hi hm => ?_) hm ⟨id, id⟩
  cases hm with
  | quiet h => rwa [h]
  | next h => exact ⟨hi.1 ∘ (h.not_entered hA).1, hi.2 ∘ (h.not_entered hA).2⟩
  | call e u _ _ h => rwa [h]
  | abort n b u _ h => rw [h]; exact ⟨fun h => (by cases h), fun h => (by cases h)⟩
  | restart _ h => rw [h]; exact ⟨fun h => (by cases h), fun h => (by cases h)⟩

/-- What the law looks at is the state machine's. -/
theorem stepConn_entry {ev : Event} {seg : InSegment} {c₁ : Conn} (hop : ev.op = .segment seg)
    (h : fsmEntry ev.e c seg = some c₁) :
    let c' := (tcpFsm ev.e c₁ seg).1
    (stepConn c ev).s.state = c'.s.state ∧ (stepConn c ev).s.rx = c'.s.rx ∧
      (stepConn c ev).s.tx = c'.s.tx ∧ (stepConn c ev).iss = c'.iss := by
  have hstep : stepConn c ev = afterFsm ev.e (tcpFsm ev.e c₁ seg) := by
    unfold stepConn tcpHandler
    rw [hop]
    unfold fsmEntry at h
    rcases hd : demux ev.e c seg with _ | c' <;> rw [hd] at h
    · cases h
    dsimp only at h ⊢
    rw [hd]
    dsimp only
    split_ifs at h ⊢
    cases h
    rfl
  rw [hstep]
  unfold afterFsm
  split_ifs <;> simp

/-! ### The state functions -/

section States

variable {seg : InSegment}

theorem tcpSendReset_s : (tcpSendReset e c seg).s = c.s := by
  unfold tcpSendReset
  dsimp only
  split <;> rfl

theorem tcpListenState_entered (hs : c.s.state = .listen) :
    let c' := (tcpListenState e c seg seg.hdr.flags).1
    c'.s.state ≠ .estab ∧ (c'.s.state = .synrec →
      seg.hdr.flags.syn ∧ c'.s.rx.recvNext = seg.hdr.seqnum + 1) := by
  unfold tcpListenState
  dsimp only
  split_ifs with hsyn
  · dsimp only [Conn.upd]
    rw [tcpSend_state, tcpSend_rx]
    exact ⟨by simp, fun _ => ⟨hsyn, rfl⟩⟩
  · rw [tcpSendReset_s, hs]
    exact ⟨by simp, fun h => by cases h⟩

/-- The data of a SYN are not taken. -/
theorem processData_recvNext_of_syn {flags : TcpFlags} (hsyn : flags.syn) :
    (processData e c seg flags).1.s.rx.recvNext = c.s.rx.recvNext := by
  have hhead : (processHeader e c.s seg flags).rx.recvNext = c.s.rx.recvNext :=
    (congrArg (fun s => s.rx.recvNext) (processHeader_core e c.s seg flags) :)
  rw [← hhead]
  unfold processData tcpProcessData
  dsimp only
  rw [if_pos (.inl hsyn)]

theorem synsentEstablish_entered {flags : TcpFlags} (hsyn : flags.syn) :
    let c' := synsentEstablish e c seg flags
    c'.s.state = .estab ∧ c'.s.rx.recvNext = seg.hdr.seqnum + 1 ∧
      c'.s.tx.sendNext = c.s.tx.sendNext + 1 ∧ c'.iss = c.iss := by
  unfold synsentEstablish
  dsimp only
  rw [tcpSend_state, tcpSend_rx, tcpSend_tx, tcpSend_iss]
  dsimp only [Conn.upd]
  rw [processData_recvNext_of_syn hsyn, processData_sendNext]
  exact ⟨by simp [processData], rfl, rfl, rfl⟩

theorem synsentRestart_state : (synsentRestart e c).s.state = c.s.state := by
  unfold synsentRestart
  dsimp only
  rw [tcpSendsoon_state]
  dsimp only
  rw [tcpSend_state]
  rfl

theorem tcpSynsentState_entered (hs : c.s.state = .synsent) :
    let c' := (tcpSynsentState e c seg seg.hdr.flags).1
    (c'.s.state = .estab → seg.hdr.flags.syn ∧ c'.s.rx.recvNext = seg.hdr.seqnum + 1 ∧
        c'.s.tx.sendNext = c.s.tx.sendNext + 1 ∧ c'.iss = c.iss) ∧
      (c'.s.state = .synrec ↔ seg.hdr.flags.syn ∧ seg.hdr.flags.ack = false) ∧
      (c'.s.state = .synrec → c'.s.rx.recvNext = c.s.rx.recvNext + 1) := by
  unfold tcpSynsentState
  dsimp only
  split_ifs with hsyn hack hnum
  · obtain ⟨h₁, h₂, h₃, h₄⟩ := @synsentEstablish_entered e (c.upd fun s => { s with
      tos := if s.tos < seg.tos then seg.tos else s.tos
      flags := s.flags.keepPushAck
      timeout := setTimeout e tcpTimeout }) seg _ hsyn
    refine ⟨fun _ => ⟨hsyn, h₂, h₃, h₄⟩, ?_, fun h => absurd (h₁.symm.trans h) (by simp)⟩
    rw [h₁]
    simp [hack]
  · have h₁ := @synsentRestart_state e (c.upd fun s => { s with
      tos := if s.tos < seg.tos then seg.tos else s.tos
      flags := s.flags.keepPushAck
      timeout := setTimeout e tcpTimeout })
    replace h₁ := h₁.trans hs
    refine ⟨fun h => absurd (h₁.symm.trans h) (by simp), ?_,
      fun h => absurd (h₁.symm.trans h) (by simp)⟩
    rw [h₁]
    simp [hack]
  · refine ⟨fun h => absurd h (by simp [Conn.upd]), ?_, fun _ => rfl⟩
    simp [hsyn, hack, Conn.upd]
  · rw [tcpSendReset_s, hs]
    refine ⟨fun h => absurd h (by simp), ?_, fun h => absurd h (by simp)⟩
    simp [hsyn]

theorem tcpSynrecState_entered (hs : c.s.state = .synrec) :
    let c' := (tcpSynrecState e c seg seg.hdr.flags).1
    c'.s.state = .estab → c'.s.rx.recvNext = c.s.rx.recvNext ∧
      c'.s.tx.sendNext = c.s.tx.sendNext + 1 ∧ c'.iss = c.iss := by
  have hcore := tcpSetWindow_core e c.s seg
  have hrx : (tcpSetWindow e c.s seg.hdr).rx.recvNext = c.s.rx.recvNext :=
    (congrArg (fun s => s.rx.recvNext) hcore :)
  have htx : (tcpSetWindow e c.s seg.hdr).tx.sendNext = c.s.tx.sendNext :=
    (congrArg (fun s => s.tx.sendNext) hcore :)
  unfold tcpSynrecState
  dsimp only
  split_ifs
  · dsimp only [Conn.upd]
    rw [tcpSend_state]
    intro h
    exact absurd (hs.symm.trans h) (by decide)
  · intro _
    dsimp only [Conn.upd]
    exact ⟨hrx, by rw [htx], rfl⟩
  · intro h
    exact absurd (hs.symm.trans h) (by decide)

end States

/-- **One step** obeys the law exactly if it is in order. -/
theorem handshakeLaw_iff {ev : Event} (ho : c.half.Opening irs) (hp : PeerSyn irs c ev) :
    HandshakeLaw irs c ev ↔ HandshakeOk irs c ev := by
  by_cases hent : ∃ seg c₁, ev.op = .segment seg ∧ fsmEntry ev.e c seg = some c₁ ∧
      (c₁.s.state = .listen ∨ c₁.s.state = .synsent ∨ c₁.s.state = .synrec)
  · obtain ⟨seg, c₁, hop, hc₁, hs⟩ := hent
    have hhalf := fsmEntry_half hc₁
    have hstate : c.s.state = c₁.s.state := (congrArg Half.state hhalf).symm
    obtain ⟨h₁, h₂, h₃, h₄⟩ := stepConn_entry hop hc₁
    have hok : HandshakeOk irs c ev ↔ (c₁.s.state = .synsent → seg.hdr.flags.syn →
        seg.hdr.flags.ack = false → c₁.s.rx.recvNext = irs) := by
      refine ⟨fun h => h seg c₁ hop hc₁, fun h seg' c' hop' hc' => ?_⟩
      cases hop.symm.trans hop'
      cases hc₁.symm.trans hc'
      exact h
    have hseq : seg.hdr.flags.syn → seg.hdr.seqnum = irs := fun hsyn =>
      hp seg c₁ hop hc₁ (by rcases hs with h | h | h <;> simp [TcpState.early, h]) hsyn
    rw [← hhalf] at ho
    have hnext : c₁.s.tx.sendNext = c₁.iss :=
      ho.sendNext (by rcases hs with h | h | h <;> simp [TcpState.early, Conn.half, h])
    rw [hok]
    unfold HandshakeLaw
    dsimp only
    rw [h₁, h₂, h₃, h₄, hstate]
    unfold tcpFsm
    rcases hs with hs | hs | hs
    · obtain ⟨hne, hrec⟩ := @tcpListenState_entered ev.e c₁ seg hs
      rw [hs]
      dsimp only
      refine iff_of_true ⟨fun _ h => ?_, fun _ h => absurd h hne⟩ (fun h => by cases h)
      rw [(hrec h).2, hseq (hrec h).1]
    · obtain ⟨hest, hrec, hnum⟩ := @tcpSynsentState_entered ev.e c₁ seg hs
      rw [hs]
      dsimp only
      constructor
      · intro h _ hsyn hack
        have hr := hrec.mpr ⟨hsyn, hack⟩
        exact add_right_cancel ((hnum hr).symm.trans (h.1 (by simp) hr))
      · intro h
        refine ⟨fun _ hr => ?_, fun _ he => ?_⟩
        · rw [hnum hr, h rfl (hrec.mp hr).1 (hrec.mp hr).2]
        · obtain ⟨hsyn, hr, hn, hi⟩ := hest he
          rw [hr, hn, hi, hseq hsyn, hnext]
          exact ⟨rfl, rfl⟩
    · have hest := @tcpSynrecState_entered ev.e c₁ seg hs
      have hrec : c₁.s.rx.recvNext = irs + 1 := ho.recvNext hs
      rw [hs]
      dsimp only
      refine iff_of_true ⟨fun h => absurd rfl h, fun _ he => ?_⟩ (fun h => by cases h)
      obtain ⟨hr, hn, hi⟩ := hest he
      rw [hr, hn, hi, hrec, hnext]
      exact ⟨rfl, rfl⟩
  · have hnone : ∀ seg c₁, ev.op = .segment seg → fsmEntry ev.e c seg = some c₁ →
        ¬ (c₁.s.state = .listen ∨ c₁.s.state = .synsent ∨ c₁.s.state = .synrec) :=
      fun seg c₁ hop hc₁ hs => hent ⟨seg, c₁, hop, hc₁, hs⟩
    have hmoves : Moves ⟨True, fun _ => False, fun _ => True⟩ c (stepConn c ev) := by
      refine stepConn_moves ev (fun _ _ => trivial) (fun seg c₁ r hop hc₁ hr => ?_)
        (fun _ _ _ => trivial)
      refine hnone seg c₁ hop hc₁ ?_
      rcases hr with ⟨hs, -⟩ | ⟨hs, -⟩ | ⟨hs, -⟩ | ⟨hs, -⟩ <;> simp [hs]
    obtain ⟨hrec, hest⟩ := moves_not_entered hmoves fun _ => id
    exact iff_of_true ⟨fun h h' => absurd (hrec h') h, fun h h' => absurd (hest h') h⟩
      fun seg c₁ hop hc₁ hs => absurd (.inr (.inl hs)) (hnone seg c₁ hop hc₁)

/-! ## Runs -/

theorem stepConn_opening {ev : Event} (ho : c.half.Opening irs) (hp : PeerSyn irs c ev)
    (hok : HandshakeOk irs c ev) : (stepConn c ev).half.Opening irs := by
  have hmoves : Moves ⟨True, fun r => r = irs + 1, fun _ => True⟩ c (stepConn c ev) := by
    refine stepConn_moves ev (fun _ _ => trivial) (fun seg c₁ r hop hc₁ hr => ?_)
      (fun _ _ _ => trivial)
    have hhalf := fsmEntry_half hc₁
    rcases hr with ⟨hs, hsyn, rfl⟩ | ⟨hs, hsyn, -, -, rfl⟩ | ⟨hs, hsyn, hack, rfl⟩ |
      ⟨hs, -, -, -, rfl⟩
    · exact congrArg (· + 1) (hp seg c₁ hop hc₁ (.inl hs) hsyn)
    · exact congrArg (· + 1) (hp seg c₁ hop hc₁ (.inr (.inr (.inl hs))) hsyn)
    · exact congrArg (· + 1) (hok seg c₁ hop hc₁ hs hsyn (Bool.eq_false_iff.mpr hack))
    · rw [← hhalf] at ho
      exact ho.recvNext hs
  exact moves_invariant (I := fun c => c.half.Opening irs)
    (fun _ _ h hm => h.move hm fun _ hr => hr) hmoves ho

/-- **Handshake synchronisation**: in every run from a control block whose handshake has not
begun, with a peer that keeps to one initial number, SYNREC and ESTAB are entered in step exactly
if every SYN without ACK that meets SYNSENT finds that number in `recv_next`. -/
theorem handshake_iff (irs : Dword) (c : Conn) (evs : List Event) (ho : c.half.Opening irs)
    (hp : Always stepConn (PeerSyn irs) c evs) :
    Always stepConn (HandshakeLaw irs) c evs ↔ Always stepConn (HandshakeOk irs) c evs :=
  always_iff_under (I := fun c => c.half.Opening irs) (fun _ _ ho hp hok => stepConn_opening ho hp hok)
    (fun _ _ ho hp => handshakeLaw_iff ho hp) evs ho hp

/-- An active open from port 1024. -/
def openingConn : Conn :=
  freshConn (tcpOpen {} 1 1024 2 80 none (fun _ => 0) (fun _ => 0)) []

/-- Both sides open: our SYN has gone out when the peer's arrives. -/
def simultaneousOpen : List Event :=
  [⟨{ arpResolved := true }, .retransmit⟩,
    ⟨{}, .segment (peerSegment { syn := true } 999 0 0)⟩]

theorem simultaneousOpen_peerSyn : Always stepConn (PeerSyn 999) openingConn simultaneousOpen :=
  ⟨fun _ _ h => (by cases h), fun _ _ h _ _ _ => (by cases h; rfl), trivial⟩

theorem openingConn_opening (irs : Dword) : openingConn.half.Opening irs :=
  ⟨fun _ => rfl, fun h => by cases h⟩

/-- In a simultaneous open SYNREC is entered with `recv_next` 1. -/
theorem handshake_fails : openingConn.half.Opening 999 ∧
    Always stepConn (PeerSyn 999) openingConn simultaneousOpen ∧
    ¬ Always stepConn (HandshakeLaw 999) openingConn simultaneousOpen := by
  refine ⟨openingConn_opening 999, simultaneousOpen_peerSyn, ?_⟩
  rintro ⟨-, h, -⟩
  have := h.1 (by decide +kernel) (by decide +kernel)
  revert this
  decide +kernel

theorem handshake_simultaneous :
    Always stepConn (HandshakeLaw 999) openingConn simultaneousOpen ↔
      Always stepConn (HandshakeOk 999) openingConn simultaneousOpen :=
  handshake_iff 999 openingConn simultaneousOpen (openingConn_opening 999) simultaneousOpen_peerSyn

end Watt32.Tcp
