import Watt32.Tcp.Delivery
import Watt32.Tcp.Transmit

/-!
# What the segments of a connection carry

* `Half.Carrying`: after the handshake the pending bytes are those taken over and not acknowledged, or
  there are none.
* `SendCall.Backed`: so they were at a call of `_tcp_send`.
* `OutSegment.Carries`: the bytes of a segment are those of the stream with its number.
* **`Carrier.step`**: without time stamps all segments of a connection carry bytes that `tcp_write` took over.
-/

namespace Watt32.Tcp

open Machine

/-! ## The half after the handshake -/

/-- After the handshake: the pending bytes are those taken over and not acknowledged, or there are
none. -/
structure Half.Carrying (h : Half) : Prop where
  stream : h.Stream
  sent : h.Sent
  late : ¬ h.state.early
  una : 0 ≤ h.una
  pending : h.pending = [] ∨ h.Transmits

section Half

variable {A : Allow} {c c' : Conn}

/-- FINs leave the numbers behind, but then nothing is pending. -/
theorem Half.Carrying.pending_next {h h' : Half} (hc : h.Carrying) (hn : h.Next A h') :
    h'.pending = [] ∨ h'.Transmits := by
  have hstream := hc.stream.next hn
  by_cases hst : h'.state.established
  · exact .inr (hstream.transmits hst)
  have hfits := hc.stream.fits
  have hpast : ∀ {st : TcpState}, st.early → h.state = st → False := fun he hs => hc.late (hs ▸ he)
  cases hn with
  | rewind =>
    refine hc.pending.imp_right fun ht => ⟨ht.pending, ht.acked, ht.sendNext, le_rfl, ?_⟩
    exact Int.natCast_nonneg _
  | grow m hm hlt => exact hc.pending.imp_right fun ht => ⟨ht.pending, ht.acked, ht.sendNext, ht.una⟩
  | receive | plain | finAgain | lastack | bothClosing | peerDone =>
    exact hc.pending.imp_right fun ht => ⟨ht.pending, ht.acked, ht.sendNext, ht.una⟩
  | ack k p q u _ hk _ hp hlen hnil hu hul =>
    refine hc.pending.imp (fun h0 => hnil h0) fun ht => ?_
    have hp' := hp hfits hc.stream.queued
    subst hp'
    exact ht.acknowledge hk hu (hul hfits ht.una.2)
  | write data p hs => exact absurd (.inl hs) hst
  | resolved hs | reseed _ hs => exact (hpast (by simp [TcpState.early]) hs).elim
  | enterSynrec r hs => rcases hs with hs | hs <;> exact (hpast (by simp [TcpState.early]) hs).elim
  | establish => exact absurd (.inl rfl) hst
  | closeNow _ hp => exact .inl hp
  | closeLater => exact absurd (.inr rfl) hst
  | finAcked st b hs =>
    refine .inl (hc.sent ?_)
    rcases hs with ⟨hs, -⟩ | ⟨hs, -⟩
    · exact .inl hs
    · exact hs
  | shut p hp =>
    rcases hp with rfl | rfl
    · exact hc.pending.imp_right fun ht => ⟨ht.pending, ht.acked, ht.sendNext, ht.una⟩
    · exact .inl rfl

theorem Half.Carrying.next {h h' : Half} (hc : h.Carrying) (hn : h.Next A h') : h'.Carrying :=
  ⟨hc.stream.next hn, hc.sent.next hn, (hn.late hc.late).1, hn.una_nonneg hc.una, hc.pending_next hn⟩

/-! ## The calls -/

/-- The transmit buffer at a call: empty, or bytes of `S`, whose first has number `q₀`. -/
structure SendCall.Backed (S : List Byte) (q₀ : Dword) (k : SendCall) : Prop where
  una : 0 ≤ k.entry.sendUna
  data : k.entry.tx.txDatalen = 0 ∨ k.entry.tx.txQueuelen = 0 ∧ ∃ x,
    k.entry.tx.sendNext = q₀ + BitVec.ofNat 32 x ∧
    Mem.slice k.entry.tx.txData 0 k.entry.tx.txDatalen.toNat <+: S.drop x

theorem SendCall.Backed.extend {S S' : List Byte} {q₀ : Dword} {k : SendCall} (h : k.Backed S q₀)
    (hS : S <+: S') : k.Backed S' q₀ := by
  refine ⟨h.una, h.data.imp_right fun ⟨hq, x, hx, hdata⟩ => ⟨hq, x, hx, hdata.trans ?_⟩⟩
  obtain ⟨rest, rfl⟩ := hS
  rw [List.drop_append]
  exact List.prefix_append _ _

/-- A call backed by the half at that time. -/
theorem Half.Carrying.backed {segs : List OutSegment} (hc : c.half.Carrying) :
    SendCall.Backed c.accepted (c.iss + 1) ⟨c.s, segs⟩ := by
  refine ⟨hc.una, ?_⟩
  rcases hc.pending with h0 | ht
  · exact .inl (pending_eq_nil.mp h0)
  · exact .inr ⟨hc.stream.queued, c.acked, ht.sendNext, ht.pending ▸ List.prefix_rfl⟩

/-- What moves keep: the half, its first number, and the bytes behind every new call. -/
structure Backs (c c' : Conn) : Prop where
  carrying : c'.half.Carrying
  iss : c'.iss = c.iss
  accepted : c.accepted <+: c'.accepted
  calls : ∀ k ∈ c'.calls, k ∈ c.calls ∨ k.Backed c'.accepted (c.iss + 1)

theorem Half.Next.numbers {h h' : Half} (hn : h.Next A h') (hs : ¬ h.state.early) :
    h'.iss = h.iss ∧ h.accepted <+: h'.accepted := by
  cases hn with
  | write data => exact ⟨rfl, List.prefix_append _ _⟩
  | reseed _ hst => exact absurd (by simp [TcpState.early, hst]) hs
  | _ => exact ⟨rfl, List.prefix_rfl⟩

theorem Backs.move {c₁ c₂ : Conn} (h : Backs c c₁) (hm : Move noRestart c₁ c₂) : Backs c c₂ := by
  have hcarry := h.carrying
  cases hm with
  | quiet hh hcalls =>
    have hiss : c₂.iss = c₁.iss := congrArg Half.iss hh
    have hacc : c₂.accepted = c₁.accepted := congrArg Half.accepted hh
    exact ⟨hh ▸ hcarry, hiss.trans h.iss, hacc ▸ h.accepted, by rw [hcalls, hacc]; exact h.calls⟩
  | next hn hcalls =>
    obtain ⟨hiss, hacc⟩ := hn.numbers hcarry.late
    refine ⟨hcarry.next hn, hiss.trans h.iss, h.accepted.trans hacc, ?_⟩
    rw [hcalls]
    exact fun k hk => (h.calls k hk).imp_right fun hb => hb.extend hacc
  | call e u hu hul hh hcalls =>
    have hiss : c₂.iss = c₁.iss := congrArg Half.iss hh
    have hacc : c₂.accepted = c₁.accepted := congrArg Half.accepted hh
    refine ⟨?_, hiss.trans h.iss, hacc ▸ h.accepted, ?_⟩
    · have hstream := hcarry.stream.move (A := noRestart) (.call e u hu hul hh hcalls) fun _ (hr : False) => hr.elim
      refine ⟨hstream, ?_, ?_, ?_, ?_⟩
      · rw [hh]
        exact hcarry.sent
      · rw [hh]
        exact hcarry.late
      · rw [hh]
        exact hu hcarry.una
      · rw [hh]
        refine hcarry.pending.imp_right fun ht => ⟨ht.pending, ht.acked, ht.sendNext, ?_⟩
        exact ⟨hu ht.una.1, hul ht.una.2⟩
    · rw [hcalls, hacc]
      intro k hk
      rcases List.mem_append.mp hk with hk | hk
      · exact h.calls k hk
      · rw [List.mem_singleton.mp hk, ← h.iss]
        exact .inr hcarry.backed
  | abort n b u hu hh hcalls =>
    have hiss : c₂.iss = c₁.iss := congrArg Half.iss hh
    have hacc : c₂.accepted = c₁.accepted := congrArg Half.accepted hh
    obtain ⟨e', new, hnew, hall⟩ := hcalls
    refine ⟨?_, hiss.trans h.iss, hacc ▸ h.accepted, ?_⟩
    · have hstream := hcarry.stream.move (A := noRestart) (.abort n b u hu hh ⟨e', new, hnew, hall⟩) fun _ (hr : False) => hr.elim
      refine ⟨hstream, ?_, ?_, ?_, ?_⟩
      · rw [hh]
        rintro (hst | hst) <;> cases hst
      · rw [hh]
        simp [TcpState.early]
      · rw [hh]
        exact hu hcarry.una
      · rw [hh]
        exact .inl rfl
    · rw [hnew, hacc]
      intro k hk
      rcases List.mem_append.mp hk with hk | hk
      · exact h.calls k hk
      · exact .inr ⟨(hall k hk).1 hcarry.una, .inl (hall k hk).2.2.1⟩
  | restart hr => exact hr.elim

theorem Backs.moves (h : c.half.Carrying) (hm : Moves noRestart c c') : Backs c c' :=
  moves_invariant (I := fun c' => Backs c c') (fun _ _ hi hm => hi.move hm) hm
    ⟨h, rfl, List.prefix_rfl, fun _ => .inl⟩

end Half

/-! ## The segments -/

/-- The bytes of the segment are those of `S` with its number, the first of `S` having number `q₀`. -/
def OutSegment.Carries (S : List Byte) (q₀ : Dword) (o : OutSegment) : Prop :=
  ∃ x, o.hdr.seqnum = q₀ + BitVec.ofNat 32 x ∧ o.payload <+: S.drop x

section Segments

variable {A : Dword → Prop} {S S' : List Byte} {q₀ : Dword} {e : Env} {k : SendCall} {o : OutSegment}

theorem OutSegment.Carries.extend (h : o.Carries S q₀) (hS : S <+: S') : o.Carries S' q₀ := by
  obtain ⟨x, hx, hpay⟩ := h
  obtain ⟨rest, rfl⟩ := hS
  refine ⟨x, hx, hpay.trans ?_⟩
  rw [List.drop_append]
  exact List.prefix_append _ _

/-- Without time stamps a plain call has no options. -/
theorem SendCall.Plain.turnLen (h : k.Plain A e) (hts : e.cfg.optTs = false) (first : Bool) :
    turnLen e k.entry first = 0 := by
  have hsyn : k.entry.flags.syn = false := h.trim.syn
  have hsecret : k.entry.secret = none := h.trim.secret
  simp [Tcp.turnLen, stampLen, baseLen, hsyn, hsecret, hts]

/-- A plain call is faithful. -/
theorem SendCall.Plain.faithful (h : k.Plain A e) (hts : e.cfg.optTs = false)
    (huna : 0 ≤ k.entry.sendUna) : CallFaithful k.entry k.segs := by
  obtain ⟨buf, ok, hsegs⟩ := h.emitted
  have hfrom : 0 ≤ sendFrom k.entry := by
    unfold sendFrom sendStart
    dsimp only
    split_ifs
    · exact le_rfl
    · exact huna
  have hok : SendOk e k.entry ok := ⟨fun _ => .inl hfrom, fun _ => h.turnLen hts true⟩
  rw [hsegs]
  exact callFaithful_of_turnOk (by omega) fun j hj hoks => hok.turnOk hj hoks

/-- **The segments of a plain call** carry bytes of the stream behind it. -/
theorem SendCall.Backed.carries (hb : k.Backed S q₀) (h : k.Plain A e) (hts : e.cfg.optTs = false)
    (ho : o ∈ k.segs) : o.Carries S q₀ := by
  have hf := (h.faithful hts hb.una).each o ho
  rcases Nat.eq_zero_or_pos o.payload.length with h0 | h0
  · refine ⟨(o.hdr.seqnum - q₀).toNat, ?_, ?_⟩
    · rw [BitVec.ofNat_toNat, BitVec.setWidth_eq]
      ring
    · rw [List.length_eq_zero_iff.mp h0]
      exact List.nil_prefix
  have hend := (hf.window h0).trans (min_le_left _ _)
  rcases hb.data with hlen | ⟨hq, x, hx, hdata⟩
  · rw [hlen] at hend
    change _ ≤ 0 at hend
    omega
  refine ⟨x + (o.hdr.seqnum - k.entry.tx.sendNext).toNat, ?_, ?_⟩
  · rw [BitVec.ofNat_add, BitVec.ofNat_toNat, BitVec.setWidth_eq, hx]
    ring
  · have hsource : k.entry.tx.source = k.entry.tx.txData := by
      unfold TxBuf.source
      rw [if_neg (not_not.mpr hq)]
    have hcut : o.payload =
        ((Mem.slice k.entry.tx.txData 0 k.entry.tx.txDatalen.toNat).drop
          (o.hdr.seqnum - k.entry.tx.sendNext).toNat).take o.payload.length := by
      conv_lhs => rw [hf.bytes, hsource]
      rw [Mem.drop_slice, Mem.take_slice, Nat.zero_add]
      congr 1
      omega
    rw [hcut, ← List.drop_drop]
    refine (List.take_prefix _ _).trans ?_
    obtain ⟨rest, hrest⟩ := hdata
    rw [← hrest, List.drop_append]
    exact List.prefix_append _ _

end Segments

/-! ## Steps -/

/-- A connection after the handshake all of whose segments carry bytes that `tcp_write` took over. -/
structure Carrier (c : Conn) : Prop where
  trim : c.s.trim.Plain anyNumber
  carrying : c.half.Carrying
  segs : ∀ k ∈ c.calls, ∀ o ∈ k.segs, o.Carries c.accepted (c.iss + 1)

theorem Carrier.late {c : Conn} (h : Carrier c) : ¬ c.s.state.early := h.carrying.late

/-- **One step**: the numbers stay, the stream grows, and new segments carry its bytes. -/
theorem Carrier.step {c : Conn} {ev : Event} (h : Carrier c) (hts : ev.e.cfg.optTs = false)
    (hreset : ∀ seg, ev.op = .segment seg → ¬ ResetsServer ev.e c seg) :
    Carrier (stepConn c ev) ∧ (stepConn c ev).iss = c.iss ∧ c.accepted <+: (stepConn c ev).accepted := by
  have hplain := (Plain.refl (e := ev.e) h.trim).step ev h.late ⟨trivial, fun _ _ => trivial⟩
  have hbacks := Backs.moves h.carrying (stepConn_moves_noRestart ev hreset)
  refine ⟨⟨hplain.trim, hbacks.carrying, fun k hk o ho => ?_⟩, hbacks.iss, hbacks.accepted⟩
  rw [hbacks.iss]
  rcases hplain.calls k hk with hold | hnew
  · exact (h.segs k hold o ho).extend hbacks.accepted
  rcases hbacks.calls k hk with hold | hbacked
  · exact (h.segs k hold o ho).extend hbacks.accepted
  · exact hbacked.carries hnew hts ho

end Watt32.Tcp
