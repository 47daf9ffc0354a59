import Watt32.Tcp.Moves

/-!
# The transmit stream

What `tcp_write` takes over waits in `tx_data` until it is acknowledged.

* `Half.Transmits`: the pending bytes are the bytes taken over and not acknowledged.
* `Half.Stream`: the invariant over all states, with a lemma for each kind of move.
* **`transmit_stream`**: it holds after every run of an opened or listening control block in which
  no server is reset with `send_una` inside the old data.
-/

namespace Watt32.Tcp

open Machine

variable {A : Allow} {e : Env} {c : Conn}

/-- The pending bytes are those taken over and not acknowledged, and the numbers agree. -/
structure Half.Transmits (h : Half) : Prop where
  pending : h.pending = h.accepted.drop h.acked
  acked : h.acked ≤ h.accepted.length
  sendNext : h.sendNext = h.iss + 1 + BitVec.ofNat 32 h.acked
  una : 0 ≤ h.una ∧ h.una ≤ h.pending.length

/-- Nothing is taken over yet. -/
structure Half.Unused (h : Half) : Prop where
  pending : h.pending = []
  accepted : h.accepted = []
  acked : h.acked = 0
  sendNext : h.sendNext = h.iss
  una : h.una = 0

/-- The states in which the application writes and the peer acknowledges. -/
def TcpState.established (st : TcpState) : Prop := st = .estab ∨ st = .estcl

/-- The invariant of all states. -/
structure Half.Stream (h : Half) : Prop where
  fits : h.Fits
  queued : h.queued = 0
  unused : h.state.early → h.Unused
  transmits : h.state.established → h.Transmits

theorem TcpState.not_early {st : TcpState} (h : st.established) : ¬ st.early := by
  rcases h with rfl | rfl <;> simp [TcpState.early]

/-- Only an established connection changes its pending bytes. -/
theorem Half.Stream.of_state {h' : Half} (hfits : h'.Fits)
    (hq : h'.queued = 0) (hearly : ¬ h'.state.early) (hst : ¬ h'.state.established) : h'.Stream :=
  ⟨hfits, hq, fun h => absurd h hearly, fun h => absurd h hst⟩

/-! ## One move -/

/-- A move that keeps the state, the bytes and the numbers. -/
theorem Half.Stream.same {h h' : Half} (hs : h.Stream) (hfits : h'.Fits) (hq : h'.queued = 0)
    (hst : h'.state = h.state) (hp : h'.pending = h.pending) (hn : h'.sendNext = h.sendNext)
    (hi : h'.iss = h.iss) (ha : h'.accepted = h.accepted) (hk : h'.acked = h.acked)
    (hu : h'.una = 0 ∨ h'.una = h.una) : h'.Stream := by
  refine ⟨hfits, hq, fun he => ?_, fun he => ?_⟩
  · obtain ⟨h₁, h₂, h₃, h₄, h₅⟩ := hs.unused (hst ▸ he)
    exact ⟨hp.trans h₁, ha.trans h₂, hk.trans h₃, (hn.trans h₄).trans hi.symm,
      hu.elim id fun h => h.trans h₅⟩
  · obtain ⟨h₁, h₂, h₃, h₄⟩ := hs.transmits (hst ▸ he)
    refine ⟨by rw [hp, ha, hk, h₁], by rw [ha, hk]; exact h₂, by rw [hn, hi, hk, h₃], ?_⟩
    rw [hp]
    rcases hu with hu | hu
    · rw [hu]
      exact ⟨le_rfl, Int.natCast_nonneg _⟩
    · rw [hu]
      exact h₄

theorem Half.Transmits.acknowledge {h : Half} (ht : h.Transmits) {k : ℕ} {u : ℤ} {q : Dword}
    (hk : k ≤ h.pending.length) (hu : 0 ≤ u) (hul : u ≤ (h.pending.drop k).length) :
    Half.Transmits { h with
      sendNext := h.sendNext + BitVec.ofNat 32 k, pending := h.pending.drop k
      acked := h.acked + k, queued := q, una := u } := by
  refine ⟨?_, ?_, ?_, hu, hul⟩
  · rw [ht.pending, List.drop_drop]
  · have := ht.acked
    rw [ht.pending, List.length_drop] at hk
    dsimp only
    omega
  · rw [ht.sendNext, BitVec.ofNat_add, add_assoc]

theorem Half.Transmits.append {h : Half} (ht : h.Transmits) (data : List Byte) :
    Half.Transmits { h with
      pending := h.pending ++ data, accepted := h.accepted ++ data } := by
  refine ⟨?_, ?_, ht.sendNext, ht.una.1, ?_⟩
  · rw [ht.pending, List.drop_append_of_le_length ht.acked]
  · rw [List.length_append]
    exact ht.acked.trans (Nat.le_add_right _ _)
  · refine ht.una.2.trans ?_
    rw [List.length_append]
    omega

theorem Half.Unused.establish {h : Half} (hu : h.Unused) {r : Dword} :
    Half.Transmits { h with
      state := .estab, sendNext := h.sendNext + 1, recvNext := r, fin := false } where
  pending := by
    show h.pending = h.accepted.drop h.acked
    rw [hu.pending, hu.accepted, List.drop_nil]
  acked := by rw [hu.acked]; exact Nat.zero_le _
  sendNext := by rw [hu.sendNext, hu.acked]; simp
  una := by rw [hu.una]; exact ⟨le_rfl, Int.natCast_nonneg _⟩

theorem Half.Stream.next {h h' : Half} (hs : h.Stream) (hn : h.Next A h') : h'.Stream := by
  have hfits := hs.fits
  cases hn with
  | rewind => exact hs.same hfits hs.queued rfl rfl rfl rfl rfl rfl (.inl rfl)
  | grow m hm hlt =>
    exact hs.same ⟨hfits.1.trans_le hm, hlt⟩ hs.queued rfl rfl rfl rfl rfl rfl (.inr rfl)
  | receive | plain => exact hs.same hfits hs.queued rfl rfl rfl rfl rfl rfl (.inr rfl)
  | ack k p q u hst hk hq hp hlen hnil hu hul =>
    have hp' := hp hfits hs.queued
    subst hp'
    refine ⟨⟨?_, hfits.2⟩, hq hs.queued, fun he => ?_, fun he => ?_⟩
    · rw [List.length_drop]
      exact (Nat.sub_le _ _).trans_lt hfits.1
    · rcases hst with h' | h' | h' | h' <;> simp [TcpState.early, h'] at he
    · have ht := hs.transmits he
      exact ht.acknowledge hk hu (hul hfits ht.una.2)
  | write data p hst hp =>
    obtain ⟨rfl, hlt⟩ := hp hfits
    have ht := hs.transmits (.inl hst)
    exact ⟨⟨hlt, hfits.2⟩, hs.queued, fun he => by simp [TcpState.early, hst] at he,
      fun _ => ht.append data⟩
  | resolved hst =>
    obtain ⟨h₁, h₂, h₃, h₄, h₅⟩ := hs.unused (.inr (.inl hst))
    exact ⟨hfits, hs.queued, fun _ => ⟨h₁, h₂, h₃, h₄, h₅⟩, fun he => by
      simp [TcpState.established] at he⟩
  | enterSynrec r hst =>
    obtain ⟨h₁, h₂, h₃, h₄, h₅⟩ := hs.unused (by rcases hst with h' | h' <;>
      simp [TcpState.early, h'])
    exact ⟨hfits, hs.queued, fun _ => ⟨h₁, h₂, h₃, h₄, h₅⟩, fun he => by
      simp [TcpState.established] at he⟩
  | reseed isn hst =>
    obtain ⟨h₁, h₂, h₃, -, h₅⟩ := hs.unused (by simp [TcpState.early, hst])
    exact ⟨hfits, hs.queued, fun _ => ⟨h₁, h₂, h₃, rfl, h₅⟩, fun he => by
      simp [TcpState.established, hst] at he⟩
  | establish r hst =>
    have hu := hs.unused (by rcases hst with h' | ⟨h', -⟩ <;> simp [TcpState.early, h'])
    exact ⟨hfits, hs.queued, fun he => by simp [TcpState.early] at he, fun _ => hu.establish⟩
  | closeLater hst hp =>
    refine ⟨hfits, hs.queued, fun he => by simp [TcpState.early] at he, fun _ => ?_⟩
    have hest : h.state.established := by
      rcases hst with h' | h' | h'
      · exact .inl h'
      · exact .inr h'
      · exact absurd (hs.unused (by simp [TcpState.early, h'])).pending hp
    obtain ⟨h₁, h₂, h₃, h₄⟩ := hs.transmits hest
    exact ⟨h₁, h₂, h₃, h₄⟩
  | finAgain hst =>
    exact Half.Stream.of_state hfits hs.queued (by simp [TcpState.early, hst])
      (by simp [TcpState.established, hst])
  | finAcked st b hst =>
    rcases hst with ⟨-, rfl⟩ | ⟨-, rfl⟩ <;>
      exact Half.Stream.of_state hfits hs.queued (by simp [TcpState.early])
        (by simp [TcpState.established])
  | shut p hp =>
    refine Half.Stream.of_state ⟨?_, hfits.2⟩ hs.queued (by simp [TcpState.early])
      (by simp [TcpState.established])
    rcases hp with rfl | rfl
    · exact hfits.1
    · exact (Nat.zero_le _).trans_lt hfits.1
  | lastack | closeNow | bothClosing | peerDone =>
    exact Half.Stream.of_state hfits hs.queued (by simp [TcpState.early]) (by simp [TcpState.established])

/-- A server may be reset only with `send_una` at the start of the buffer. -/
theorem Half.Stream.move {c c' : Conn} (hs : c.half.Stream) (hm : Move A c c')
    (hA : ∀ u, A.restart u → u = 0) : c'.half.Stream := by
  have hfits := hs.fits
  have hpos : 0 < c.half.maxTx := (Nat.zero_le _).trans_lt hfits.1
  cases hm with
  | quiet h => rwa [h]
  | next h => exact hs.next h
  | call e u hu hul h =>
    rw [h]
    refine ⟨hfits, hs.queued, fun he => ?_, fun he => ?_⟩
    · obtain ⟨h₁, h₂, h₃, h₄, h₅⟩ := hs.unused he
      refine ⟨h₁, h₂, h₃, h₄, le_antisymm ?_ (hu h₅.ge)⟩
      have := hul (by rw [h₅]; exact Int.natCast_nonneg _)
      rwa [h₁] at this
    · obtain ⟨h₁, h₂, h₃, h₄⟩ := hs.transmits he
      exact ⟨h₁, h₂, h₃, hu h₄.1, hul h₄.2⟩
  | abort n b u _ h =>
    rw [h]
    exact Half.Stream.of_state ⟨hpos, hfits.2⟩ hs.queued (by simp [TcpState.early])
      (by simp [TcpState.established])
  | restart hr h =>
    rw [h]
    exact ⟨⟨hpos, hfits.2⟩, hs.queued, fun _ => ⟨rfl, rfl, rfl, rfl, hA _ hr⟩,
      fun he => by simp [TcpState.established] at he⟩

/-! ## Runs -/

/-- The segment, if it resets a server, finds `send_una` at the start of the buffer. -/
def ResetOk (c : Conn) (ev : Event) : Prop :=
  ∀ seg, ev.op = .segment seg → ResetsServer ev.e c seg → c.s.sendUna = 0

theorem stepConn_stream (ev : Event) (hs : c.half.Stream) (h : ResetOk c ev) :
    (stepConn c ev).half.Stream := by
  have hmoves : Moves ⟨True, fun _ => True, fun u => u = 0⟩ c (stepConn c ev) :=
    stepConn_moves ev (fun _ _ => trivial) (fun _ _ _ _ _ _ => trivial) h
  exact moves_invariant (I := fun c => c.half.Stream)
    (fun _ _ hs hm => hs.move hm fun _ hu => hu) hmoves hs

/-- A control block before the handshake, with an empty buffer. -/
structure Half.Opened (h : Half) : Prop where
  early : h.state.early
  unused : h.Unused
  fits : h.Fits
  queued : h.queued = 0

theorem opened_tcpOpen (e : Env) (myaddr : Dword) (lport : Word) (ip : Dword) (rport : Word)
    (handler : Option ProtoHandler) (rxBuf txBuf : ℕ → Byte) (txOk : List Bool) :
    (freshConn (tcpOpen e myaddr lport ip rport handler rxBuf txBuf) txOk).half.Opened :=
  ⟨.inr (.inl rfl), ⟨rfl, rfl, rfl, rfl, rfl⟩, (by decide : 0 < 2048 ∧ 2048 < 2 ^ 16), rfl⟩

theorem opened_tcpListen (e : Env) (lport : Word) (ip : Dword) (port : Word)
    (handler : Option ProtoHandler) (timeout : Word) (rxBuf txBuf : ℕ → Byte) (txOk : List Bool) :
    (freshConn (tcpListen e lport ip port handler timeout rxBuf txBuf) txOk).half.Opened :=
  ⟨.inl rfl, ⟨rfl, rfl, rfl, rfl, rfl⟩, (by decide : 0 < 2048 ∧ 2048 < 2 ^ 16), rfl⟩

/-- **The transmit stream**: after every run of an opened or listening control block whose resets
are in order the pending bytes fit, and in ESTAB and ESTCL they are exactly the bytes taken over
and not acknowledged. -/
theorem transmit_stream (c : Conn) (evs : List Event) (ho : c.half.Opened)
    (h : Always stepConn ResetOk c evs) :
    (run stepConn c evs).half.Fits ∧
      ((run stepConn c evs).half.state.established → (run stepConn c evs).half.Transmits) := by
  have hs : c.half.Stream := by
    refine ⟨ho.fits, ho.queued, fun _ => ho.unused, fun he => ?_⟩
    exact absurd ho.early (TcpState.not_early he)
  have := run_invariant (I := fun c => c.half.Stream) (fun c ev hs hr => stepConn_stream ev hs hr)
    evs hs h
  exact ⟨this.fits, this.transmits⟩

/-- A listening server on port 1024. -/
def listeningConn : Conn :=
  freshConn (tcpListen {} 1024 0 0 none 0 (fun _ => 0) (fun _ => 0)) []

/-- The peer opens a connection on `listeningConn` when our number is `n`. -/
def handshake (n : Dword) : List Event :=
  [⟨{}, .segment (peerSegment { syn := true } 999 0 0)⟩,
    ⟨{}, .segment (peerSegment { ack := true } 1000 (n + 1) 0)⟩]

theorem transmit_stream_listening :
    (run stepConn listeningConn (handshake 0)).half.Fits ∧
      ((run stepConn listeningConn (handshake 0)).half.state.established →
        (run stepConn listeningConn (handshake 0)).half.Transmits) := by
  refine transmit_stream _ _ (opened_tcpListen _ _ _ _ _ _ _ _ _) ⟨fun seg hseg hr => ?_,
    fun seg hseg hr => ?_, trivial⟩
  · cases hseg
    rfl
  · cases hseg
    decide +kernel

/-- Reset while data are in flight, the server starts the next connection with `send_una` behind
its empty buffer. -/
theorem transmit_stream_fails :
    let c := run stepConn listeningConn (handshake 0 ++ [⟨{}, .write [1, 2, 3, 4]⟩,
      ⟨{}, .segment (peerSegment { rst := true } 1000 0 0)⟩] ++ handshake 1 ++
      [⟨{}, .segment (peerSegment { ack := true } 1000 2 0)⟩])
    c.half.state.established ∧ ¬ c.half.Transmits := by
  refine ⟨.inl (by decide +kernel), fun h => ?_⟩
  have := h.una.2
  revert this
  decide +kernel

end Watt32.Tcp
