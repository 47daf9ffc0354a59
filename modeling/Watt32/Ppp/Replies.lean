import Watt32.Ppp.Buffers

/-!
# The replies of PPP

* `answer`: the buffer that an action gives to `ppp_write`; **`replies_sendEvent`**: an event is answered once.
* `WellFormed`: what a reply should be like; `ReplyOk`: when it is.
* **`replies_iff`**: in every state that is reached a packet is answered as it should be exactly if `ReplyOk`.
-/

namespace Watt32.Ppp

open Machine Mem

variable {clock : ℕ → ℕ} {x y : Xcp} {e : PppEvent} {s t u : PppState}

/-! ## One answer -/

/-- What an answer gives to `ppp_write`: the buffer, and how much of it. -/
def answer (x : Xcp) (s : PppState) : XcpAction → (ℕ → Byte) × ℕ
  | .acSta => (put s.outbuffer 0 (header x codeTermAck (s.inbuffer 3)), 6)
  | .acSca => (Function.update s.inbuffer 2 codeConfAck, (s.mlen + s.bp).toNat)
  | .acScn =>
    (if maxFailure ≤ (s.xcp x).naksSent then Function.update s.outbuffer 4 codeConfRej else s.outbuffer, s.up)
  | .acSer =>
    (put (Function.update s.inbuffer 2 codeEchoRep) 6 (be32 s.mymagic), (s.mlen + s.bp).toNat)
  | _ => (s.outbuffer, s.up)

theorem replies_pppWrite (buf : ℕ → Byte) (len : ℕ) (s : PppState) :
    replies (pppWrite true buf len s) = replies s ++ [⟨true, slice buf 0 len⟩] := by
  simp [replies, pppWrite]

theorem replies_dispatchAction {send : Xcp → PppEvent → PppState → Option PppState} {r : XcpAction} (hr : Reply r)
    (ht : t ∈ dispatchAction clock send x s r) :
    replies t = replies s ++ [⟨true, slice (answer x s r).1 0 (answer x s r).2⟩] := by
  rcases hr with rfl | rfl | rfl | rfl | rfl <;> obtain rfl := Option.some_inj.mp ht
  · exact replies_pppWrite ..
  · refine (replies_pppWrite ..).trans ?_
    cases x <;> rfl
  · refine (replies_pppWrite ..).trans ?_
    cases x <;> rfl
  · exact replies_pppWrite ..
  · exact replies_pppWrite ..

/-- The action that answers an event. -/
def answering (st : XcpState) (e : PppEvent) : Option XcpAction := (pppDispatch st e).2.find? fun a => Reply a

/-- No event is answered twice. -/
theorem answered_once : ∀ (st : XcpState) (e : PppEvent), ((pppDispatch st e).2.filter (Reply ·)).length ≤ 1 := by
  decide

/-- The actions before the answer. -/
def before (st : XcpState) (e : PppEvent) : List XcpAction := (pppDispatch st e).2.takeWhile fun a => ¬ Reply a

theorem quiet_foldlM (n : ℕ) {as : List XcpAction} (has : ∀ a ∈ as, ¬ Reply a)
    (ht : t ∈ as.foldlM (dispatchAction clock (sendEvent clock n) x) s) : Quiet s t :=
  foldlM_rel Quiet.refl Quiet.trans (fun a ha _ _ ht => quiet_dispatchAction (quiet_sendEvent n) (has a ha) ht) ht

/-- An event that is not answered. -/
theorem replies_none (n : ℕ) (hr : answering (s.xcp x).state e = none)
    (ht : t ∈ sendEvent clock n x e s) : replies t = replies s := by
  cases n with
  | zero => exact absurd ht (Option.not_mem_none _)
  | succ n =>
    have has : ∀ a ∈ (pppDispatch (s.xcp x).state e).2, ¬ Reply a := by simpa [answering] using hr
    exact ((quiet_modify x _ s).trans (quiet_foldlM n has ht)).2.2.2

/-- **An event that is answered**: what is done before does not touch the packet, and nothing else is an answer. -/
theorem replies_sendEvent (n : ℕ) {r : XcpAction} (hr : answering (s.xcp x).state e = some r)
    (ht : t ∈ sendEvent clock (n + 1) x e s) :
    ∃ u ∈ (before (s.xcp x).state e).foldlM (dispatchAction clock (sendEvent clock n) x)
        (enterState x (pppDispatch (s.xcp x).state e).1 s),
      Quiet s u ∧ replies t = replies s ++ [⟨true, slice (answer x u r).1 0 (answer x u r).2⟩] := by
  obtain ⟨hrr, as, bs, hacts, has⟩ := List.find?_eq_some_iff_append.mp hr
  have hr' : Reply r := of_decide_eq_true hrr
  have has' : ∀ a ∈ as, ¬ Reply a := fun a ha => by simpa using has a ha
  have hbefore : before (s.xcp x).state e = as := by
    rw [before, hacts, List.takeWhile_append_of_pos fun a ha => decide_eq_true (has' a ha),
      List.takeWhile_cons_of_neg (by simpa using hr'), List.append_nil]
  have hbs : ∀ b ∈ bs, ¬ Reply b := by
    have honce := answered_once (s.xcp x).state e
    rw [hacts, List.filter_append, List.filter_cons_of_pos (p := fun a => decide (Reply a)) hrr, List.length_append, List.length_cons] at honce
    have hnil : (bs.filter (Reply ·)).length = 0 := by omega
    rw [List.length_eq_zero_iff, List.filter_eq_nil_iff] at hnil
    exact fun b hb => by simpa using hnil b hb
  rw [hbefore]
  rw [sendEvent, hacts, List.foldlM_append] at ht
  obtain ⟨u, hu, ht⟩ := Option.mem_bind_iff.mp ht
  rw [List.foldlM_cons] at ht
  obtain ⟨v, hv, ht⟩ := Option.mem_bind_iff.mp ht
  have hsu : Quiet s u := (quiet_modify x _ s).trans (quiet_foldlM n has' hu)
  refine ⟨u, hu, hsu, ?_⟩
  rw [(quiet_foldlM n hbs ht).2.2.2, replies_dispatchAction hr' hv, hsu.2.2.2]

/-! ## Packets -/

namespace Packet

/-- A packet from the code on. -/
def inbuf (p : Packet) : ℕ → Byte := fun i => p.mem (i + 2)

/-- Its code, its identifier, its length. -/
def code (p : Packet) : Byte := p.inbuf 0
def ident (p : Packet) : Byte := p.inbuf 1
def length (p : Packet) : ℕ := (get16 p.inbuf 2).toNat

/-- What is behind the length. -/
def data (p : Packet) : List Byte := slice p.inbuf 4 (p.length - 4)

/-- The control protocol it belongs to. -/
def xcp (p : Packet) : Option Xcp :=
  if p.proto = Xcp.lcp.proto then some .lcp else if p.proto = Xcp.ipcp.proto then some .ipcp else none

/-- Its length is that of what was received. -/
def Consistent (p : Packet) : Prop := 4 ≤ p.length ∧ p.length + 2 = p.len.toNat

/-- The options of a Configure-Request, and whether the last one is cut off. -/
def options (p : Packet) : List ℕ × Bool := Ppp.options p.inbuf (p.length - 4) (p.length - 4) 4

/-- The options that a control protocol does not know. -/
def offending (p : Packet) (x : Xcp) : List Byte := (unknown x p.inbuf p.options.1).flatMap (optionAt p.inbuf)

end Packet

/-! ## Well-formed replies -/

/-- A control packet. -/
structure ReplyFrame where
  proto : Word
  code : Byte
  ident : Byte
  data : List Byte

/-- Its bytes: protocol, code, identifier, length and data. -/
def ReplyFrame.encode (f : ReplyFrame) : List Byte :=
  be16 f.proto ++ [f.code, f.ident] ++ be16 (BitVec.ofNat 16 (4 + f.data.length)) ++ f.data

/-- The codes that answer a packet in a state of the automaton. Configure packets get a Terminate-Ack where the
link is closed. -/
def replyCodes (p : Packet) (st : XcpState) : List Byte :=
  if p.xcp = none then [codeProtoRej]
  else if p.code = codeConfReq then
    if st = .stClosed then [codeTermAck] else [codeConfAck, codeConfNak, codeConfRej]
  else if p.code ∈ [codeConfAck, codeConfNak, codeConfRej] then
    if st = .stClosed ∨ st = .stStopped then [codeTermAck] else []
  else if p.code = codeTermReq then [codeTermAck]
  else if p.code = codeEchoReq then [codeEchoRep]
  else if p.code ∈ [codeTermAck, codeCodeRej, codeProtoRej, codeEchoRep, codeDiscardReq] then []
  else [codeCodeRej]

/-- The replies that carry the identifier of the packet: not the rejection of a code or a protocol, and a
Terminate-Ack only if it was asked for. -/
def CarriesIdent (p : Packet) (code : Byte) : Prop :=
  code ∈ [codeConfAck, codeConfNak, codeConfRej, codeEchoRep] ∨ (code = codeTermAck ∧ p.code = codeTermReq)

instance (p : Packet) (code : Byte) : Decidable (CarriesIdent p code) := inferInstanceAs (Decidable (_ ∨ _))

/-- What a reply should be like. -/
structure Fits (p : Packet) (st : XcpState) (f : ReplyFrame) : Prop where
  size : 4 + f.data.length < 2 ^ 16
  proto : f.proto = (p.xcp.getD .lcp).proto
  code : f.code ∈ replyCodes p st
  ident : CarriesIdent p f.code → f.ident = p.ident
  ack : f.code = codeConfAck → f.data = p.data
  reject : f.code = codeConfRej → f.data = p.offending (p.xcp.getD .lcp)

/-- The bytes are those of a reply that fits. -/
def WellFormed (p : Packet) (st : XcpState) (bytes : List Byte) : Prop := ∃ f, Fits p st f ∧ f.encode = bytes

/-- The reply in a buffer is well-formed. -/
structure Good (p : Packet) (st : XcpState) (m : ℕ → Byte) (n : ℕ) : Prop where
  size : 6 ≤ n ∧ n - 2 < 2 ^ 16
  proto : get16 m 0 = (p.xcp.getD .lcp).proto
  code : m 2 ∈ replyCodes p st
  ident : CarriesIdent p (m 2) → m 3 = p.ident
  length : (get16 m 4).toNat = n - 2
  ack : m 2 = codeConfAck → slice m 6 (n - 6) = p.data
  reject : m 2 = codeConfRej → slice m 6 (n - 6) = p.offending (p.xcp.getD .lcp)

/-- Two bytes are those of a word exactly if they make it. -/
theorem get16_iff {m : ℕ → Byte} {i : ℕ} {w : Word} :
    get16 m i = w ↔ m i = (w >>> 8).setWidth 8 ∧ m (i + 1) = w.setWidth 8 := by
  have happ : (get16 m i).toNat = (m i).toNat * 256 + (m (i + 1)).toNat := by
    rw [get16, BitVec.toNat_append, ← Nat.shiftLeft_add_eq_or_of_lt (m (i + 1)).isLt, Nat.shiftLeft_eq]
  have hlo : (m (i + 1)).toNat < 256 := (m (i + 1)).isLt
  have hhi : (m i).toNat < 256 := (m i).isLt
  have hw : w.toNat < 65536 := w.isLt
  rw [← BitVec.toNat_inj, ← BitVec.toNat_inj, ← BitVec.toNat_inj, happ, BitVec.toNat_setWidth, BitVec.toNat_setWidth,
    BitVec.toNat_ushiftRight, Nat.shiftRight_eq_div_pow]
  omega

/-- A buffer, with the six bytes of a header on their own. -/
theorem slice_header (m : ℕ → Byte) (k : ℕ) :
    slice m 0 (6 + k) = m 0 :: m 1 :: m 2 :: m 3 :: m 4 :: m 5 :: slice m 6 k := by
  rw [slice_add]
  rfl

theorem wellFormed_iff {p : Packet} {st : XcpState} {m : ℕ → Byte} {n : ℕ} :
    WellFormed p st (slice m 0 n) ↔ Good p st m n := by
  constructor
  · rintro ⟨f, hf, he⟩
    obtain rfl : n = 6 + f.data.length := by
      have hlen := congrArg List.length he
      rw [length_slice] at hlen
      exact hlen.symm.trans (by simp [ReplyFrame.encode, be16]; omega)
    rw [slice_header] at he
    simp only [ReplyFrame.encode, be16, List.cons_append, List.nil_append, List.cons.injEq] at he
    obtain ⟨h0, h1, h2, h3, h4, h5, hd⟩ := he
    have hs : 4 + f.data.length < 2 ^ 16 := hf.size
    have hpr : get16 m 0 = f.proto := get16_iff.mpr ⟨h0.symm, h1.symm⟩
    have hle : get16 m 4 = BitVec.ofNat 16 (4 + f.data.length) := get16_iff.mpr ⟨h4.symm, h5.symm⟩
    refine ⟨⟨by omega, by omega⟩, hpr.trans hf.proto, h2 ▸ hf.code, fun h => ?_, ?_, fun h => ?_, fun h => ?_⟩
    · rw [← h3]
      exact hf.ident (h2.symm ▸ h)
    · rw [hle, BitVec.toNat_ofNat, Nat.mod_eq_of_lt hs]
      omega
    · rw [Nat.add_sub_cancel_left, ← hd]
      exact hf.ack (h2.trans h)
    · rw [Nat.add_sub_cancel_left, ← hd]
      exact hf.reject (h2.trans h)
  · intro hg
    obtain ⟨k, rfl⟩ : ∃ k, n = 6 + k := ⟨n - 6, by have := hg.size; omega⟩
    have hlen : (slice m 6 k).length = k := length_slice
    have hs : 6 + k - 2 < 2 ^ 16 := hg.size.2
    refine ⟨⟨(p.xcp.getD .lcp).proto, m 2, m 3, slice m 6 k⟩, ⟨?_, rfl, hg.code, hg.ident, ?_, ?_⟩, ?_⟩
    · change 4 + (slice m 6 k).length < 2 ^ 16
      rw [hlen]
      omega
    · exact fun h => (Nat.add_sub_cancel_left 6 k ▸ hg.ack h :)
    · exact fun h => (Nat.add_sub_cancel_left 6 k ▸ hg.reject h :)
    · obtain ⟨h0, h1⟩ := get16_iff.mp hg.proto
      have hle : get16 m 4 = BitVec.ofNat 16 (4 + k) := by
        rw [← BitVec.toNat_inj, hg.length, BitVec.toNat_ofNat, Nat.mod_eq_of_lt (by omega)]
        omega
      obtain ⟨h4, h5⟩ := get16_iff.mp hle
      rw [slice_header]
      simp only [ReplyFrame.encode, be16, List.cons_append, List.nil_append, List.cons.injEq, hlen]
      exact ⟨h0.symm, h1.symm, trivial, trivial, h4.symm, h5.symm, trivial⟩

/-! ## The answers one by one -/

variable {p : Packet} {st : XcpState} {m out : ℕ → Byte} {n : ℕ}

/-- A Terminate-Ack takes the low byte of the length for the identifier. -/
theorem good_sta (hx : p.xcp = some x) (hc : codeTermAck ∈ replyCodes p st) (ident : Byte) :
    Good p st (put out 0 (header x codeTermAck ident)) 6 ↔ (p.code = codeTermReq → ident = p.ident) := by
  obtain ⟨hpr, h2, h3, h4, h5⟩ := slice_eq_header (x := x) (slice_put : slice (put out 0 (header x codeTermAck ident)) 0 6 = _)
  generalize put out 0 (header x codeTermAck ident) = m at hpr h2 h3 h4 h5
  constructor
  · intro h hcode
    rw [← h3]
    exact h.ident (.inr ⟨h2, hcode⟩)
  · intro h
    refine ⟨by decide, by rw [hpr, hx]; rfl, h2.symm ▸ hc, fun hi => ?_, ?_, fun h => ?_, fun h => ?_⟩
    · rw [h2] at hi
      rw [h3]
      exact h (hi.resolve_left (by decide)).2
    · rw [get16, h4, h5]
      decide
    · exact absurd (h2.symm.trans h) (by decide)
    · exact absurd (h2.symm.trans h) (by decide)

/-- What is sent from where the packet was received has no protocol field. -/
theorem not_good_in (hm : m 0 = codeConfReq ∨ m 0 = codeEchoReq ∨ m 0 = codeDiscardReq ∨ m 0 = codeEchoRep) :
    ¬ Good p st m n := by
  intro h
  have hpr := (get16_iff.mp h.proto).1
  generalize p.xcp.getD .lcp = y at hpr
  rcases hm with hm | hm | hm | hm <;> rw [hm] at hpr <;> cases y <;> exact absurd hpr (by decide)

/-- There is no Code-Reject in the buffer. -/
theorem not_good_scj (hc : replyCodes p st = [codeCodeRej]) (hout : (out 2).toNat ≤ 6) : ¬ Good p st out n := by
  intro h
  have hcode := h.code
  rw [hc, List.mem_singleton] at hcode
  rw [hcode] at hout
  exact absurd hout (by decide)

/-- A length field as `code_reply` and `acScn` leave it. -/
theorem length_cases (h4 : m 4 = 0 ∨ m 4 = codeConfRej) (h5 : m 5 = 4) (h : Good p st m n) :
    n = 6 ∨ (n = 1030 ∧ m 4 = codeConfRej) := by
  have hl := h.length
  have h6 := h.size.1
  rw [get16, h5] at hl
  rcases h4 with h4 | h4 <;> rw [h4] at hl
  · have hv : ((0 : Byte) ++ (4 : Byte)).toNat = 4 := by decide
    omega
  · have hv : (codeConfRej ++ (4 : Byte)).toNat = 1028 := by decide
    exact .inr ⟨by omega, h4⟩

/-! ## Configure-Rejects -/

/-- Options of the same lengths, one behind the other. -/
theorem flatMap_eq_iff {α β : Type} {f g : α → List β} : ∀ {l : List α}, (∀ a ∈ l, (f a).length = (g a).length) →
    (l.flatMap f = l.flatMap g ↔ ∀ a ∈ l, f a = g a)
  | [], _ => by simp
  | a :: l, h => by
    have hl := flatMap_eq_iff fun b hb => h b (List.mem_cons_of_mem a hb)
    rw [List.flatMap_cons, List.flatMap_cons, List.forall_mem_cons]
    constructor
    · intro he
      obtain ⟨ha, hr⟩ := List.append_inj he (h a (List.mem_cons_self ..))
      exact ⟨ha, hl.mp hr⟩
    · rintro ⟨ha, hr⟩
      rw [ha, hl.mpr hr]

/-- When a Configure-Reject is right, by coincidence: the fifth Nak was sent before, so that the length is 1028
(0x404), and it is so long indeed; the identifier is the low byte of the length; no option is too short; and if the
request does not break off, the number 1026 (0x402) that is written over the first option is that option. -/
structure Lucky (x : Xcp) (s : PppState) (p : Packet) : Prop where
  naks : maxFailure ≤ (s.xcp x).naksSent
  ident : p.inbuf 3 = p.ident
  size : (p.offending x).length = 1024
  whole : ∀ bp ∈ unknown x p.inbuf p.options.1, 2 ≤ (p.inbuf (bp + 1)).toNat
  first : p.options.2 = true ∨ (p.offending x).take 2 = [codeConfRej, 2]

/-- The options as they are copied. -/
def copied (p : Packet) (x : Xcp) : List Byte := (unknown x p.inbuf p.options.1).flatMap (fixedOption p.inbuf)

theorem copied_eq_iff : copied p x = p.offending x ↔
    ∀ bp ∈ unknown x p.inbuf p.options.1, 2 ≤ (p.inbuf (bp + 1)).toNat := by
  rw [copied, Packet.offending, flatMap_eq_iff fun bp _ => length_fixedOption.trans length_optionAt.symm]
  exact forall₂_congr fun bp _ => fixedOption_eq_iff

theorem length_copied : (copied p x).length = (p.offending x).length := by
  rw [copied, Packet.offending, List.length_flatMap, List.length_flatMap]
  congr 1
  exact List.map_congr_left fun bp _ => length_fixedOption.trans length_optionAt.symm

/-- The header of a Configure-Reject in the buffer, with the length that `acScn` may have touched. -/
theorem good_reject_iff (hx : p.xcp = some x) (hc : codeConfRej ∈ replyCodes p st) {naks : ℕ}
    (hh : slice out 0 6 = header x codeConfRej (p.inbuf 3)) (hn : 8 ≤ n) :
    Good p st (if maxFailure ≤ naks then Function.update out 4 codeConfRej else out) n ↔
      maxFailure ≤ naks ∧ p.inbuf 3 = p.ident ∧ n = 1030 ∧ slice out 6 (n - 6) = p.offending x := by
  obtain ⟨hpr, h2, h3, h4, h5⟩ := slice_eq_header hh
  by_cases hnaks : maxFailure ≤ naks
  · rw [if_pos hnaks, and_iff_right hnaks]
    have hslice : slice (Function.update out 4 codeConfRej) 6 (n - 6) = slice out 6 (n - 6) :=
      slice_congr fun i _ => Function.update_of_ne (by omega) ..
    have hupd {i : ℕ} (hi : i ≠ 4) : Function.update out 4 codeConfRej i = out i := Function.update_of_ne hi ..
    constructor
    · intro h
      have hlen := length_cases (.inr (Function.update_self ..)) ((hupd (by decide)).trans h5) h
      refine ⟨?_, by omega, ?_⟩
      · rw [← h3, ← hupd (by decide : 3 ≠ 4)]
        refine h.ident (.inl ?_)
        rw [hupd (by decide), h2]
        decide
      · rw [← hslice, h.reject ((hupd (by decide)).trans h2), hx]
        rfl
    · rintro ⟨hid, rfl, hdata⟩
      refine ⟨by decide, ?_, ?_, fun _ => ?_, ?_, fun h => ?_, fun _ => ?_⟩
      · rw [get16, hupd (by decide), hupd (by decide), hx]
        exact hpr
      · rw [hupd (by decide), h2]
        exact hc
      · rw [hupd (by decide), h3, hid]
      · rw [get16, Function.update_self, hupd (by decide), h5]
        decide
      · rw [hupd (by decide), h2] at h
        exact absurd h (by decide)
      · rw [hslice, hdata, hx]
        rfl
  · rw [if_neg hnaks]
    refine ⟨fun h => ?_, fun h => absurd h.1 hnaks⟩
    have hlen := length_cases (.inl h4) h5 h
    rw [h4] at hlen
    rcases hlen with rfl | ⟨-, h0⟩
    · omega
    · exact absurd h0 (by decide)

/-- What is left in the buffer from before is not a right answer to a request that breaks off. -/
theorem not_good_stale (hx : p.xcp = some x) (hc : replyCodes p st = [codeConfAck, codeConfNak, codeConfRej])
    (hw : Written x out n) (hu : unknown x p.inbuf p.options.1 = []) {naks : ℕ} :
    ¬ Good p st (if maxFailure ≤ naks then Function.update out 4 codeConfRej else out) n := by
  intro h
  have hw' : Written x (if maxFailure ≤ naks then Function.update out 4 codeConfRej else out) n := by
    split_ifs
    · exact (sound_scn { outbuffer := out, up := n }).2 x hw
    · exact hw
  generalize (if maxFailure ≤ naks then Function.update out 4 codeConfRej else out) = m at h hw'
  have hpr : get16 m 0 = x.proto := by
    have hpr := h.proto
    rwa [hx] at hpr
  obtain ⟨hack, hrest⟩ := hw' hpr
  have hcode := h.code
  rw [hc] at hcode
  simp only [List.mem_cons, List.not_mem_nil, or_false] at hcode
  have hcode' := hcode.resolve_left hack
  obtain ⟨h5, h4, hup, hnak⟩ := hrest hcode'
  rcases length_cases h4 h5 h with rfl | ⟨rfl, -⟩
  · omega
  · rcases hcode' with hn | hr
    · exact absurd (hnak hn) (by decide)
    · have hdata := h.reject hr
      rw [hx, Option.getD_some, Packet.offending, hu] at hdata
      have hlen := congrArg List.length hdata
      rw [length_slice] at hlen
      exact absurd (show 1030 - 6 = 0 from hlen) (by decide)

/-- Nor is a Configure-Nak ever right. -/
theorem not_good_nak {k naks : ℕ} (hh : slice out 0 6 = header x codeConfNak (p.inbuf 3)) :
    ¬ Good p st (if maxFailure ≤ naks then Function.update out 4 codeConfRej else out) (6 + 6 * (k + 1)) := by
  intro h
  obtain ⟨-, -, -, h4, h5⟩ := slice_eq_header hh
  have hlen : 6 + 6 * (k + 1) = 6 ∨ 6 + 6 * (k + 1) = 1030 := by
    split_ifs at h
    · exact (length_cases (.inr (Function.update_self ..)) ((Function.update_of_ne (by decide) ..).trans h5) h).imp id And.left
    · exact (length_cases (.inl h4) h5 h).imp id And.left
  omega

/-- The options of a Configure-Reject, as they are in the buffer. -/
theorem Rejecting.options {ps : List ℕ} {up : ℕ} (h : Rejecting x m ps out up) :
    slice out 6 (up - 6) = (unknown x m ps).flatMap (fixedOption m) := by
  obtain ⟨-, hup, hout⟩ := h
  have hdrop := congrArg (List.drop 6) hout
  rw [drop_slice, List.drop_left' (by rw [length_header])] at hdrop
  exact hdrop

theorem size_iff {up : ℕ} (h : Rejecting x p.inbuf p.options.1 out up) :
    up = 1030 ↔ (p.offending x).length = 1024 := by
  rw [← length_copied, h.2.1]
  change 6 + (copied p x).length = 1030 ↔ _
  omega

/-- A Configure-Reject of a request that breaks off: the options are as they were copied. -/
theorem good_cut_iff (hx : p.xcp = some x) (hc : codeConfRej ∈ replyCodes p st) {up : ℕ}
    (hb : p.options.2 = true) (h : Rejecting x p.inbuf p.options.1 out up) :
    Good p st (if maxFailure ≤ (s.xcp x).naksSent then Function.update out 4 codeConfRej else out) up ↔
      Lucky x s p := by
  obtain ⟨hh, h8⟩ := h.header
  rw [good_reject_iff hx hc hh h8, h.options, size_iff h]
  change _ ∧ _ ∧ _ ∧ copied p x = _ ↔ _
  rw [copied_eq_iff]
  exact ⟨fun ⟨h₁, h₂, h₃, h₄⟩ => ⟨h₁, h₂, h₃, h₄, .inl hb⟩, fun hl => ⟨hl.naks, hl.ident, hl.size, hl.whole⟩⟩

/-- The number 1026 over the first option. -/
theorem overwritten_iff (hne : unknown x p.inbuf p.options.1 ≠ []) :
    [codeConfRej, 2] ++ (copied p x).drop 2 = p.offending x ↔
      (∀ bp ∈ unknown x p.inbuf p.options.1, 2 ≤ (p.inbuf (bp + 1)).toNat) ∧
        (p.offending x).take 2 = [codeConfRej, 2] := by
  rw [← copied_eq_iff]
  constructor
  · intro h
    have htake : (p.offending x).take 2 = [codeConfRej, 2] := by
      rw [← h]
      rfl
    refine ⟨?_, htake⟩
    have hdrop : (copied p x).drop 2 = (p.offending x).drop 2 := by
      rw [← h]
      rfl
    -- the first option is of length 2, and is copied as it is
    obtain ⟨bp, bps, hbp⟩ := List.exists_cons_of_ne_nil hne
    have h2 : 2 ≤ (optionAt p.inbuf bp).length := length_optionAt.symm ▸ le_max_left _ _
    have hoff : (p.offending x).take 2 = [p.inbuf bp, p.inbuf (bp + 1)] := by
      rw [Packet.offending, hbp, List.flatMap_cons, List.take_append_of_le_length h2, optionAt, take_slice,
        Nat.min_eq_left (length_optionAt ▸ h2)]
      rfl
    have hsec : p.inbuf (bp + 1) = 2 := by
      rw [htake, List.cons.injEq, List.cons.injEq] at hoff
      exact hoff.2.1.symm
    have hfix : fixedOption p.inbuf bp = optionAt p.inbuf bp := fixedOption_eq_iff.mpr (by rw [hsec]; decide)
    have htake' : (copied p x).take 2 = (p.offending x).take 2 := by
      rw [copied, Packet.offending, hbp, List.flatMap_cons, List.flatMap_cons, hfix,
        List.take_append_of_le_length h2, List.take_append_of_le_length h2]
    rw [← List.take_append_drop 2 (copied p x), htake', hdrop, List.take_append_drop]
  · rintro ⟨hcop, htake⟩
    rw [hcop, ← htake, List.take_append_drop]

/-- The options of a Configure-Reject, with a length written over the first one. -/
theorem slice_overwritten {up : ℕ} (h : Rejecting x p.inbuf p.options.1 out up) (hup : up = 1030) :
    slice (putLength out 6 (up - 4)) 6 (up - 6) = [codeConfRej, 2] ++ (copied p x).drop 2 := by
  have hcop : slice out 6 (up - 6) = copied p x := h.options
  have hlen : be16 (BitVec.ofNat 16 (up - 4)) = [codeConfRej, 2] := by rw [hup]; decide
  obtain ⟨k, rfl⟩ : ∃ k, up = 8 + k := ⟨1022, hup⟩
  rw [show 8 + k - 6 = 2 + k by omega] at hcop ⊢
  have hlow : slice (putLength out 6 (8 + k - 4)) 6 2 = [codeConfRej, 2] := by
    rw [putLength, ← hlen]
    exact slice_put
  have hhigh : slice (putLength out 6 (8 + k - 4)) (6 + 2) k = slice out (6 + 2) k :=
    slice_put_disjoint (.inr le_rfl)
  rw [← hcop, drop_slice, slice_add, hlow, hhigh, Nat.add_sub_cancel_left]

/-- A Configure-Reject of a request that does not break off. -/
theorem good_overwritten_iff (hx : p.xcp = some x) (hc : codeConfRej ∈ replyCodes p st) {up : ℕ}
    (hb : p.options.2 = false) (h : Rejecting x p.inbuf p.options.1 out up) :
    Good p st (if maxFailure ≤ (s.xcp x).naksSent then Function.update (putLength out 6 (up - 4)) 4 codeConfRej
      else putLength out 6 (up - 4)) up ↔ Lucky x s p := by
  obtain ⟨hh, h8⟩ := h.header
  have hh' : slice (putLength out 6 (up - 4)) 0 6 = header x codeConfRej (p.inbuf 3) :=
    (slice_put_disjoint (.inl le_rfl)).trans hh
  rw [good_reject_iff hx hc hh' h8]
  constructor
  · rintro ⟨hn, hid, hup, hdata⟩
    rw [slice_overwritten h hup, overwritten_iff h.1] at hdata
    exact ⟨hn, hid, (size_iff h).mp hup, hdata.1, .inr hdata.2⟩
  · intro hl
    have hup : up = 1030 := (size_iff h).mpr hl.size
    refine ⟨hl.naks, hl.ident, hup, ?_⟩
    rw [slice_overwritten h hup, overwritten_iff h.1]
    exact ⟨hl.whole, hl.first.resolve_left (by rw [hb]; nofun)⟩

/-- A Configure-Reject that is lucky is not empty. -/
theorem not_lucky (hu : unknown x p.inbuf p.options.1 = []) : ¬ Lucky x s p := by
  intro hl
  have hsize := hl.size
  rw [Packet.offending, hu] at hsize
  exact absurd (show 0 = 1024 from hsize) (by decide)

/-- **The answer to a bad Configure-Request** while the automaton negotiates. -/
theorem good_scn_iff (hx : p.xcp = some x) (hc : replyCodes p st = [codeConfAck, codeConfNak, codeConfRej])
    (hin : s.inbuffer = p.inbuf) (hopt : s.options = p.options) (hw : Written x s.outbuffer s.up)
    (hv : Validated x s t) (hbad : t.parseState ≠ .psOK) :
    Good p st (if maxFailure ≤ (s.xcp x).naksSent then Function.update t.outbuffer 4 codeConfRej
      else t.outbuffer) t.up ↔ Lucky x s p := by
  have hrej : codeConfRej ∈ replyCodes p st := by rw [hc]; decide
  cases hv with
  | good hu => exact absurd rfl hbad
  | stale hu =>
    rw [hin, hopt] at hu
    exact iff_of_false (not_good_stale hx hc hw hu) (not_lucky hu)
  | nak st' out k hst hu h =>
    rw [hin] at h hu
    rw [hopt] at hu
    exact iff_of_false (not_good_nak h) (not_lucky hu)
  | cut out up hb h =>
    rw [hin, hopt] at h
    exact good_cut_iff hx hrej (hopt ▸ hb) h
  | reject out up hb h =>
    rw [hin, hopt] at h
    exact good_overwritten_iff hx hrej (hopt ▸ hb) h

/-! ## The law -/

/-- All replies to a packet are well-formed. -/
def Answered (s : PppState) (p : Packet) (t : PppState) : Prop :=
  ∀ r ∈ replies t, WellFormed p (s.xcp (p.xcp.getD .lcp)).state r.bytes

/-- The states in which a Configure-Request gets a Terminate-Ack, or no reply. -/
def Deaf (st : XcpState) : Prop :=
  st = .stInitial ∨ st = .stStarting ∨ st = .stClosed ∨ st = .stClosing ∨ st = .stStopping

instance (st : XcpState) : Decidable (Deaf st) := inferInstanceAs (Decidable (_ ∨ _))

/-- When the replies to a packet are well-formed: it gets none, or a Terminate-Ack with the right identifier, or a
Configure-Reject that is lucky. -/
def ReplyOk (s : PppState) (p : Packet) : Prop :=
  match p.xcp with
  | none => p.proto = pppIp ∨ s.lcp.state ≠ .stOpened
  | some x =>
    if p.code = codeConfReq then Deaf (s.xcp x).state ∨ Negotiating (s.xcp x).state ∧ Lucky x s p
    else if p.code = codeTermReq then Down (s.xcp x).state ∨ p.inbuf 3 = p.ident
    else if p.code = codeEchoReq ∨ p.code = codeDiscardReq then (s.xcp x).state ≠ .stOpened
    else if p.code = codeEchoRep then (s.xcp x).state = .stOpened → p.ident ≠ (s.xcp x).ident
    else if p.code ∈ [codeConfAck, codeConfNak, codeConfRej, codeTermAck, codeCodeRej, codeProtoRej] then True
    else Down (s.xcp x).state

/-- The packet, when it is dispatched. -/
def atHand (s : PppState) (p : Packet) : PppState :=
  { s with sent := [], inbuffer := p.inbuf, bp := 4, mlen := (p.length : ℤ) - 4 }

theorem proto_of_xcp (hx : p.xcp = some x) : p.proto = x.proto := by
  unfold Packet.xcp at hx
  split_ifs at hx with h₁ h₂
  · obtain rfl := Option.some_inj.mp hx
    exact h₁
  · obtain rfl := Option.some_inj.mp hx
    exact h₂

/-- A consistent packet is dispatched. -/
theorem handle_eq (hp : p.Consistent) (hx : p.xcp = some x) :
    handle clock s (.input p) = negotiate clock x p.code p.ident (atHand s p) := by
  obtain ⟨h4, hlen⟩ := hp
  have hpr : p.proto = x.proto := proto_of_xcp hx
  have hsub : (p.len - 2).toNat = p.length := by
    have hlt : p.len.toNat < 65536 := p.len.isLt
    rw [BitVec.toNat_sub, show (2 : Word).toNat = 2 from rfl]
    omega
  have hdeliver : stdNegotiation clock x
      { s with sent := [], inbuffer := p.inbuf, bp := 0, mlen := (p.len - 2).toNat } =
        negotiate clock x p.code p.ident (atHand s p) := by
    have hmlen : ¬ ((p.len - 2).toNat : ℤ) < 4 := by omega
    have hle : ¬ ((p.len - 2).toNat : ℤ) < (get16 p.inbuf (0 + 2)).toNat := by
      rw [hsub]
      exact lt_irrefl _
    unfold stdNegotiation
    rw [if_neg hmlen]
    simp only [if_neg hle]
    rfl
  unfold handle pppInput
  simp only
  cases x with
  | lcp => rw [hpr, if_neg (by decide), if_pos rfl]; exact hdeliver
  | ipcp => rw [hpr, if_neg (by decide), if_neg (by decide), if_pos rfl]; exact hdeliver

/-! ## The events -/

theorem answering_RCRp : ∀ st, answering st .evRCRp =
    if st = .stClosed then some .acSta else if Deaf st then none else some .acSca := by decide

theorem answering_RCRm : ∀ st, answering st .evRCRm =
    if st = .stClosed then some .acSta else if Deaf st then none else some .acScn := by decide

theorem answering_rcx : ∀ st, ∀ e ∈ [PppEvent.evRCA, .evRCN], answering st e =
    if st = .stClosed ∨ st = .stStopped then some .acSta else none := by decide

theorem answering_RTR : ∀ st, answering st .evRTR = if Down st then none else some .acSta := by decide

theorem answering_RUC : ∀ st, answering st .evRUC = if Down st then none else some .acScj := by decide

theorem answering_RXR : ∀ st, answering st .evRXR = if st = .stOpened then some .acSer else none := by decide

theorem answering_none : ∀ st, ∀ e ∈ [PppEvent.evRTA, .evRXJp, .evRXJm], answering st e = none := by decide

/-- The state before an event that a packet brings. -/
structure Brought (x : Xcp) (s : PppState) (p : Packet) (u : PppState) : Prop where
  packet : u.inbuffer = p.inbuf
  quiet : replies u = []
  state : (u.xcp x).state = (s.xcp x).state

theorem answered_of_none (hu : replies u = []) (hr : answering (u.xcp y).state e = none)
    (ht : t ∈ sendEvent clock depth y e u) : Answered s p t := by
  unfold Answered
  rw [replies_none depth hr ht, hu]
  exact nofun

/-- An event is answered as it should be exactly if the one buffer that is sent is good. -/
theorem answered_iff (hx : p.xcp = some x) (hb : Brought x s p u) {r : XcpAction}
    (hr : answering (s.xcp x).state e = some r) (ht : t ∈ sendEvent clock depth x e u) :
    ∃ w ∈ (before (s.xcp x).state e).foldlM (dispatchAction clock (sendEvent clock 7) x)
        (enterState x (pppDispatch (s.xcp x).state e).1 u),
      w.inbuffer = p.inbuf ∧ (Answered s p t ↔ Good p (s.xcp x).state (answer x w r).1 (answer x w r).2) := by
  obtain ⟨w, hw, hq, hrep⟩ := replies_sendEvent 7 (hb.state ▸ hr) ht
  rw [hb.state] at hw
  rw [hb.quiet, List.nil_append] at hrep
  refine ⟨w, hw, hq.1.trans hb.packet, ?_⟩
  rw [← wellFormed_iff, Answered, hrep, hx, Option.getD_some]
  exact List.forall_mem_singleton

/-- A Terminate-Ack. -/
theorem answered_sta (hx : p.xcp = some x) (hb : Brought x s p u) (hr : answering (s.xcp x).state e = some .acSta)
    (hc : codeTermAck ∈ replyCodes p (s.xcp x).state) (ht : t ∈ sendEvent clock depth x e u) :
    Answered s p t ↔ (p.code = codeTermReq → p.inbuf 3 = p.ident) := by
  obtain ⟨w, -, hin, hw⟩ := answered_iff hx hb hr ht
  rw [hw]
  change Good p _ (put w.outbuffer 0 (header x codeTermAck (w.inbuffer 3))) 6 ↔ _
  rw [good_sta hx hc, hin]

/-- What is sent from the input buffer. -/
theorem not_answered_in (hx : p.xcp = some x) (hb : Brought x s p u) {r : XcpAction} (hra : r = .acSca ∨ r = .acSer)
    (hr : answering (s.xcp x).state e = some r)
    (hc : p.code = codeConfReq ∨ p.code = codeEchoReq ∨ p.code = codeDiscardReq ∨ p.code = codeEchoRep)
    (ht : t ∈ sendEvent clock depth x e u) : ¬ Answered s p t := by
  obtain ⟨w, -, hin, hw⟩ := answered_iff hx hb hr ht
  rw [hw]
  refine not_good_in ?_
  have hcode : (answer x w r).1 0 = p.code := by
    rcases hra with rfl | rfl
    · change Function.update w.inbuffer 2 codeConfAck 0 = p.inbuf 0
      rw [Function.update_of_ne (by decide), hin]
    · change put (Function.update w.inbuffer 2 codeEchoRep) 6 (be32 w.mymagic) 0 = p.inbuf 0
      rw [put_of_lt (by decide), Function.update_of_ne (by decide), hin]
  rw [hcode]
  exact hc

/-- A Code-Reject. -/
theorem not_answered_scj (hx : p.xcp = some x) (hb : Brought x s p u) (hr : answering (s.xcp x).state e = some .acScj)
    (hbe : before (s.xcp x).state e = []) (hc : replyCodes p (s.xcp x).state = [codeCodeRej])
    (hout : (u.outbuffer 2).toNat ≤ 6) (ht : t ∈ sendEvent clock depth x e u) : ¬ Answered s p t := by
  obtain ⟨w, hw, -, hiff⟩ := answered_iff hx hb hr ht
  rw [hbe] at hw
  obtain rfl := Option.some_inj.mp hw
  rw [hiff]
  refine not_good_scj hc ?_
  have hsame : (enterState x (pppDispatch (s.xcp x).state e).1 u).outbuffer = u.outbuffer := by cases x <;> rfl
  change ((enterState x _ u).outbuffer 2).toNat ≤ 6
  rw [hsame]
  exact hout

/-- A request of one's own in its place. -/
theorem not_answered_scr (hx : p.xcp = some x) (hb : Brought x s p u) (hr : answering (s.xcp x).state e = some .acScn)
    (hc : codeConfReq ∉ replyCodes p (s.xcp x).state)
    (hbe : ∀ w ∈ (before (s.xcp x).state e).foldlM (dispatchAction clock (sendEvent clock 7) x)
      (enterState x (pppDispatch (s.xcp x).state e).1 u), w.outbuffer 2 = codeConfReq)
    (ht : t ∈ sendEvent clock depth x e u) : ¬ Answered s p t := by
  obtain ⟨w, hw, -, hiff⟩ := answered_iff hx hb hr ht
  rw [hiff]
  intro hg
  have hcode := hg.code
  have h2 : (answer x w .acScn).1 2 = codeConfReq := by
    change (if _ then Function.update w.outbuffer 4 _ else w.outbuffer) 2 = _
    split_ifs
    · rw [Function.update_of_ne (by decide), hbe w hw]
    · exact hbe w hw
  rw [h2] at hcode
  exact hc hcode

/-- The states in which a bad Configure-Request is answered by a Configure-Nak or a Configure-Reject. -/
theorem bad_request_cases : ∀ st, ¬ Deaf st →
    (Negotiating st ∧ before st .evRCRm = []) ∨ (st = .stStopped ∧ before st .evRCRm = [.acIrc, .acScr]) ∨
      (st = .stOpened ∧ before st .evRCRm = [.acTld, .acScr]) := by
  decide

/-- The codes that answer a Configure-Request. -/
theorem replyCodes_request (hx : p.xcp = some x) (hc : p.code = codeConfReq) {st : XcpState} (hst : st ≠ .stClosed) :
    replyCodes p st = [codeConfAck, codeConfNak, codeConfRej] := by
  unfold replyCodes
  rw [if_neg (by rw [hx]; nofun), if_pos hc, if_neg hst]

theorem atHand_options (s : PppState) (p : Packet) : (atHand s p).options = p.options := by
  have hlen : ((p.length : ℤ) - 4).toNat = p.length - 4 := by omega
  change options p.inbuf ((p.length : ℤ) - 4).toNat ((p.length : ℤ) - 4).toNat 4 = _
  rw [hlen]
  rfl

theorem lucky_atHand : Lucky x (atHand s p) p ↔ Lucky x s p := by
  have hx : (atHand s p).xcp x = s.xcp x := by cases x <;> rfl
  exact ⟨fun h => ⟨hx ▸ h.naks, h.ident, h.size, h.whole, h.first⟩,
    fun h => ⟨hx ▸ h.naks, h.ident, h.size, h.whole, h.first⟩⟩

/-- **Configure-Requests**. -/
theorem answered_request (hs : Inv s) (hx : p.xcp = some x) (hc : p.code = codeConfReq)
    (ht : t ∈ sendEvent clock depth x (if (validateRequest x (atHand s p)).parseState = .psOK then .evRCRp else .evRCRm)
      (validateRequest x (atHand s p))) :
    Answered s p t ↔ Deaf (s.xcp x).state ∨ Negotiating (s.xcp x).state ∧ Lucky x s p := by
  have hopt := atHand_options s p
  have hv := validateRequest_cases x (atHand s p)
  have hxcp : ∀ y, (validateRequest x (atHand s p)).xcp y = s.xcp y := fun y => by
    rw [xcp_validateRequest]
    cases y <;> rfl
  generalize validateRequest x (atHand s p) = v at hv ht hxcp
  have hb : Brought x s p v := by
    refine ⟨?_, ?_, congrArg PppXcp.state (hxcp x)⟩
    · cases hv <;> rfl
    · cases hv <;> rfl
  by_cases hcl : (s.xcp x).state = .stClosed
  · -- a Terminate-Ack, which need not carry the identifier
    refine iff_of_true ?_ (.inl (by rw [hcl]; decide))
    have hcodes : codeTermAck ∈ replyCodes p (s.xcp x).state := by
      unfold replyCodes
      rw [if_neg (by rw [hx]; nofun), if_pos hc, if_pos hcl]
      decide
    split_ifs at ht
    · exact (answered_sta hx hb (by rw [answering_RCRp, if_pos hcl]) hcodes ht).mpr fun h =>
        absurd (hc.symm.trans h) (by decide)
    · exact (answered_sta hx hb (by rw [answering_RCRm, if_pos hcl]) hcodes ht).mpr fun h =>
        absurd (hc.symm.trans h) (by decide)
  by_cases hd : Deaf (s.xcp x).state
  · refine iff_of_true ?_ (.inl hd)
    split_ifs at ht
    · exact answered_of_none hb.quiet (by rw [hb.state, answering_RCRp, if_neg hcl, if_pos hd]) ht
    · exact answered_of_none hb.quiet (by rw [hb.state, answering_RCRm, if_neg hcl, if_pos hd]) ht
  have hcodes := replyCodes_request hx hc hcl
  rw [or_iff_right hd]
  by_cases hok : v.parseState = .psOK
  · rw [if_pos hok] at ht
    refine iff_of_false ?_ fun h => ?_
    · exact not_answered_in hx hb (.inl rfl) (by rw [answering_RCRp, if_neg hcl, if_neg hd]) (.inl hc) ht
    · refine not_lucky ?_ h.2
      cases hv with
      | good hu => exact hopt ▸ hu
      | nak st out k hst => exact absurd hok hst
      | stale hu => cases hok
      | cut out up hb h => cases hok
      | reject out up hb h => cases hok
  · rw [if_neg hok] at ht
    have hr : answering (s.xcp x).state .evRCRm = some .acScn := by rw [answering_RCRm, if_neg hcl, if_neg hd]
    have hno : codeConfReq ∉ replyCodes p (s.xcp x).state := by rw [hcodes]; decide
    rcases bad_request_cases _ hd with ⟨hn, hbe⟩ | ⟨hst, hbe⟩ | ⟨hst, hbe⟩
    · rw [and_iff_right hn]
      obtain ⟨w, hw, -, hiff⟩ := answered_iff hx hb hr ht
      rw [hbe] at hw
      obtain rfl := Option.some_inj.mp hw
      have hwr : Written x (atHand s p).outbuffer (atHand s p).up := by
        cases x with
        | lcp => exact hs.lcp hn
        | ipcp => exact hs.ipcp
      have hgood := good_scn_iff hx hcodes rfl hopt hwr hv hok
      rw [lucky_atHand] at hgood
      rw [hiff, ← hgood]
      have hans : answer x (enterState x (pppDispatch (s.xcp x).state .evRCRm).1 v) .acScn =
          (if maxFailure ≤ (v.xcp x).naksSent then Function.update v.outbuffer 4 codeConfRej else v.outbuffer,
            v.up) := by
        cases x <;> rfl
      have hnaks : ((atHand s p).xcp x).naksSent = (v.xcp x).naksSent := by
        rw [hxcp]
        cases x <;> rfl
      rw [hans, hnaks]
    · refine iff_of_false (not_answered_scr hx hb hr hno (fun w hw => ?_) ht) fun h => ?_
      · rw [hbe] at hw
        exact irc_scr_code hw
      · rw [hst] at h
        exact absurd h.1 (by decide)
    · refine iff_of_false (not_answered_scr hx hb hr hno (fun w hw => ?_) ht) fun h => ?_
      · rw [hbe, hst] at hw
        have hpos : 0 < (s.xcp x).restart := hs.restart x hst
        refine tld_scr_code 7 ?_ ?_ hw
        · rw [enterState_self, hxcp]
          exact hpos
        · rw [enterState_self]
          exact .inl rfl
      · rw [hst] at h
        exact absurd h.1 (by decide)

/-! ## The packets -/

theorem replies_stopRejected (code : Byte) (proto : Word) (s : PppState) :
    replies (stopRejected code proto s) = replies s := by
  unfold stopRejected
  split_ifs <;> rfl

/-- A packet that brings no event. -/
theorem answered_nothing (hr : receive x p.code p.ident (atHand s p) = none)
    (ht : t ∈ negotiate clock x p.code p.ident (atHand s p)) : Answered s p t := by
  rw [negotiate, hr] at ht
  obtain rfl := Option.some_inj.mp ht
  exact nofun

/-- A packet that brings one. -/
theorem answered_event (hr : receive x p.code p.ident (atHand s p) = some (y, e, u))
    (ht : t ∈ negotiate clock x p.code p.ident (atHand s p)) :
    ∃ v ∈ sendEvent clock depth y e u, (Answered s p t ↔ Answered s p v) := by
  rw [negotiate, hr] at ht
  obtain ⟨v, hv, rfl⟩ := Option.map_eq_some_iff.mp ht
  refine ⟨v, hv, ?_⟩
  rw [Answered, Answered, replies_stopRejected]

theorem brought_atHand (s : PppState) (p : Packet) : Brought x s p (atHand s p) :=
  ⟨rfl, rfl, by cases x <;> rfl⟩

/-- Taking over options changes nothing that matters here. -/
theorem brought_processRcx (code : Byte) (s : PppState) (p : Packet) :
    Brought x s p (processRcx x code (atHand s p)) := by
  have hmod (i : ℕ) (f : OptionState → OptionState) (s : PppState) :
      let t := s.modify x fun p => { p with opts := Function.update p.opts i (f (p.opts i)) }
      Quiet s t ∧ Concerns x x s t :=
    ⟨quiet_modify x _ s, concerns_modify x _ s fun _ => rfl⟩
  have hone (s : PppState) (bp : ℕ) : Quiet s (processOption x code s bp) ∧ Concerns x x s (processOption x code s bp) := by
    unfold processOption
    cases findType x (s.inbuffer bp) with
    | none => exact ⟨Quiet.refl s, concerns_of_xcp rfl⟩
    | some p =>
      obtain ⟨t, i⟩ := p
      simp only
      split_ifs
      · exact hmod i (fun o => { o with unusable := true }) s
      · exact hmod i (fun o => { o with myValue := t.defaultValue }) s
      · exact hmod i (fun o => { o with myValue := optionValue s.inbuffer bp }) s
      · exact hmod i (fun o => { o with myValue := get32 s.inbuffer (bp + 2) }) s
  have hall : ∀ (ps : List ℕ) (s : PppState), Quiet s (ps.foldl (processOption x code) s) ∧
      Concerns x x s (ps.foldl (processOption x code) s) := by
    intro ps
    induction ps with
    | nil => exact fun s => ⟨Quiet.refl s, concerns_of_xcp rfl⟩
    | cons bp ps ih => exact fun s => ⟨(hone s bp).1.trans (ih _).1, (hone s bp).2.trans (ih _).2⟩
  obtain ⟨hq, hc⟩ := hall (atHand s p).options.1 (atHand s p)
  exact ⟨hq.1, hq.2.2.2, hc.1.trans (brought_atHand s p).state⟩

/-- Terminate-Requests: the identifier is taken from the wrong place. -/
theorem answered_terminate (hx : p.xcp = some x) (hc : p.code = codeTermReq)
    (ht : t ∈ sendEvent clock depth x .evRTR (atHand s p)) :
    Answered s p t ↔ Down (s.xcp x).state ∨ p.inbuf 3 = p.ident := by
  have hbr : Brought x s p (atHand s p) := brought_atHand s p
  by_cases hd : Down (s.xcp x).state
  · refine iff_of_true (answered_of_none hbr.quiet ?_ ht) (.inl hd)
    rw [hbr.state, answering_RTR, if_pos hd]
  · have hcodes : codeTermAck ∈ replyCodes p (s.xcp x).state := by
      unfold replyCodes
      rw [if_neg (by rw [hx]; nofun), hc, if_neg (by decide), if_neg (by decide), if_pos rfl]
      exact List.mem_singleton_self _
    rw [answered_sta hx hbr (by rw [answering_RTR, if_neg hd]) hcodes ht, or_iff_right hd]
    exact ⟨fun h => h hc, fun h _ => h⟩

/-- Echo packets. -/
theorem answered_echo (hx : p.xcp = some x)
    (hc : p.code = codeEchoReq ∨ p.code = codeDiscardReq ∨ p.code = codeEchoRep)
    (ht : t ∈ sendEvent clock depth x .evRXR (atHand s p)) : Answered s p t ↔ (s.xcp x).state ≠ .stOpened := by
  have hbr : Brought x s p (atHand s p) := brought_atHand s p
  by_cases ho : (s.xcp x).state = .stOpened
  · refine iff_of_false ?_ (not_not.mpr ho)
    exact not_answered_in hx hbr (.inr rfl) (by rw [answering_RXR, if_pos ho]) (.inr hc) ht
  · refine iff_of_true (answered_of_none hbr.quiet ?_ ht) ho
    rw [hbr.state, answering_RXR, if_neg ho]

/-- Answers to a Configure-Request of ours. -/
theorem answered_rcx (hx : p.xcp = some x) (hc : p.code ∈ [codeConfAck, codeConfNak, codeConfRej])
    (he : e ∈ [PppEvent.evRCA, .evRCN]) (hb : Brought x s p u) (ht : t ∈ sendEvent clock depth x e u) :
    Answered s p t := by
  by_cases hst : (s.xcp x).state = .stClosed ∨ (s.xcp x).state = .stStopped
  · have hcodes : codeTermAck ∈ replyCodes p (s.xcp x).state := by
      unfold replyCodes
      rw [if_neg (by rw [hx]; nofun), if_neg (fun h => by rw [h] at hc; exact absurd hc (by decide)), if_pos hc,
        if_pos hst]
      exact List.mem_singleton_self _
    refine (answered_sta hx hb (by rw [answering_rcx _ e he, if_pos hst]) hcodes ht).mpr fun h => ?_
    rw [h] at hc
    exact absurd hc (by decide)
  · exact answered_of_none hb.quiet (by rw [hb.state, answering_rcx _ e he, if_neg hst]) ht

theorem before_RUC : ∀ st, ¬ Down st → before st .evRUC = [] := by decide

/-- Packets with another code. -/
theorem answered_unknown (hs : Inv s) (hx : p.xcp = some x) (hc : replyCodes p (s.xcp x).state = [codeCodeRej])
    (bp : ℕ) (ht : t ∈ sendEvent clock depth x .evRUC { atHand s p with bp := bp }) :
    Answered s p t ↔ Down (s.xcp x).state := by
  have hbr : Brought x s p { atHand s p with bp := bp } := ⟨rfl, rfl, by cases x <;> rfl⟩
  by_cases hd : Down (s.xcp x).state
  · refine iff_of_true (answered_of_none hbr.quiet ?_ ht) hd
    rw [hbr.state, answering_RUC, if_pos hd]
  · refine iff_of_false ?_ hd
    exact not_answered_scj hx hbr (by rw [answering_RUC, if_neg hd]) (before_RUC _ hd) hc hs.code ht

/-- The packets that never get a wrong reply. -/
theorem answered_right (hx : p.xcp = some x)
    (hc : p.code ∈ [codeConfAck, codeConfNak, codeConfRej, codeTermAck, codeCodeRej, codeProtoRej])
    (ht : t ∈ negotiate clock x p.code p.ident (atHand s p)) : Answered s p t := by
  have hbr : ∀ {x}, Brought x s p (atHand s p) := brought_atHand s p
  have hbp (n : ℕ) : Brought x s p { atHand s p with bp := n } := ⟨rfl, rfl, by cases x <;> rfl⟩
  have hnone {y : Xcp} {e : PppEvent} {u : PppState}
      (hr : receive x p.code p.ident (atHand s p) = some (y, e, u)) (hb : Brought y s p u)
      (he : e ∈ [PppEvent.evRTA, .evRXJp, .evRXJm]) : Answered s p t := by
    obtain ⟨v, hv, hiff⟩ := answered_event hr ht
    exact hiff.mpr (answered_of_none hb.quiet (answering_none _ e he) hv)
  have hrcx {e : PppEvent} (hcode : p.code ∈ [codeConfAck, codeConfNak, codeConfRej])
      (he : e ∈ [PppEvent.evRCA, .evRCN]) (hr : receive x p.code p.ident (atHand s p) =
        if p.ident = ((atHand s p).xcp x).ident then some (x, e, processRcx x p.code (atHand s p)) else none) :
      Answered s p t := by
    split_ifs at hr
    · obtain ⟨v, hv, hiff⟩ := answered_event hr ht
      exact hiff.mpr (answered_rcx hx hcode he (brought_processRcx p.code s p) hv)
    · exact answered_nothing hr ht
  simp only [List.mem_cons, List.not_mem_nil, or_false] at hc
  rcases hc with hc | hc | hc | hc | hc | hc
  · exact hrcx (e := .evRCA) (by rw [hc]; decide) (by decide) (by rw [hc]; rfl)
  · exact hrcx (e := .evRCN) (by rw [hc]; decide) (by decide) (by rw [hc]; rfl)
  · exact hrcx (e := .evRCN) (by rw [hc]; decide) (by decide) (by rw [hc]; rfl)
  · have hr : receive x p.code p.ident (atHand s p) =
        if p.ident = ((atHand s p).xcp x).ident then some (x, .evRTA, atHand s p) else none := by rw [hc]; rfl
    split_ifs at hr
    · exact hnone hr hbr (by decide)
    · exact answered_nothing hr ht
  · have hr : receive x p.code p.ident (atHand s p) = some (x, if (atHand s p).inbuffer 4 ≠ 0 ∧
        (atHand s p).inbuffer 4 < codeEchoReq then .evRXJm else .evRXJp, { atHand s p with bp := 5 }) := by
      rw [hc]
      rfl
    refine hnone hr (hbp 5) ?_
    split_ifs <;> decide
  · have hr : receive x p.code p.ident (atHand s p) = if get16 (atHand s p).inbuffer (atHand s p).bp = Xcp.lcp.proto
        then some (.lcp, .evRXJm, atHand s p) else some (x, .evRXJp, atHand s p) := by rw [hc]; rfl
    split_ifs at hr
    · exact hnone hr hbr (by decide)
    · exact hnone hr hbr (by decide)

/-- **One packet** of a control protocol. -/
theorem answered_iff_replyOk (hs : Inv s) (hx : p.xcp = some x)
    (ht : t ∈ negotiate clock x p.code p.ident (atHand s p)) : Answered s p t ↔ ReplyOk s p := by
  unfold ReplyOk
  simp only [hx]
  by_cases h1 : p.code = codeConfReq
  · rw [if_pos h1]
    have hr : receive x p.code p.ident (atHand s p) = some (x, if (validateRequest x (atHand s p)).parseState = .psOK
        then .evRCRp else .evRCRm, validateRequest x (atHand s p)) := by rw [h1]; rfl
    obtain ⟨v, hv, hiff⟩ := answered_event hr ht
    exact hiff.trans (answered_request hs hx h1 hv)
  rw [if_neg h1]
  by_cases h2 : p.code = codeTermReq
  · rw [if_pos h2]
    have hr : receive x p.code p.ident (atHand s p) = some (x, .evRTR, atHand s p) := by rw [h2]; rfl
    obtain ⟨v, hv, hiff⟩ := answered_event hr ht
    exact hiff.trans (answered_terminate hx h2 hv)
  rw [if_neg h2]
  by_cases h3 : p.code = codeEchoReq ∨ p.code = codeDiscardReq
  · rw [if_pos h3]
    have hr : receive x p.code p.ident (atHand s p) = some (x, .evRXR, atHand s p) := by
      rcases h3 with h | h <;> rw [h] <;> rfl
    obtain ⟨v, hv, hiff⟩ := answered_event hr ht
    exact hiff.trans (answered_echo hx (h3.imp id .inl) hv)
  rw [if_neg h3]
  by_cases h4 : p.code = codeEchoRep
  · rw [if_pos h4]
    have hid : ((atHand s p).xcp x).ident = (s.xcp x).ident := by cases x <;> rfl
    have hr : receive x p.code p.ident (atHand s p) =
        if p.ident = ((atHand s p).xcp x).ident then some (x, .evRXR, atHand s p) else none := by rw [h4]; rfl
    rw [hid] at hr
    by_cases hi : p.ident = (s.xcp x).ident
    · rw [if_pos hi] at hr
      obtain ⟨v, hv, hiff⟩ := answered_event hr ht
      refine hiff.trans ((answered_echo hx (.inr (.inr h4)) hv).trans ?_)
      exact ⟨fun h h' => absurd h' h, fun h h' => h h' hi⟩
    · rw [if_neg hi] at hr
      exact iff_of_true (answered_nothing hr ht) fun _ => hi
  rw [if_neg h4]
  by_cases h5 : p.code ∈ [codeConfAck, codeConfNak, codeConfRej, codeTermAck, codeCodeRej, codeProtoRej]
  · rw [if_pos h5]
    exact iff_of_true (answered_right hx h5 ht) trivial
  rw [if_neg h5]
  simp only [List.mem_cons, List.not_mem_nil, or_false, not_or] at h5
  obtain ⟨hack, hnak, hrej, hta, hcr, hpr⟩ := h5
  obtain ⟨her, hdr⟩ := not_or.mp h3
  have hr : receive x p.code p.ident (atHand s p) = some (x, .evRUC, { atHand s p with bp := 0 }) := by
    unfold receive
    rw [if_neg h1, if_neg hack, if_neg (not_or.mpr ⟨hnak, hrej⟩), if_neg h2, if_neg hta, if_neg hcr, if_neg hpr,
      if_neg h3, if_neg h4]
    rfl
  have hcodes : replyCodes p (s.xcp x).state = [codeCodeRej] := by
    unfold replyCodes
    rw [if_neg (by rw [hx]; nofun), if_neg h1, if_neg (by simp [hack, hnak, hrej]), if_neg h2, if_neg her,
      if_neg (by simp [hta, hcr, hpr, h4, hdr])]
  obtain ⟨v, hv, hiff⟩ := answered_event hr ht
  exact hiff.trans (answered_unknown hs hx hcodes 0 hv)

/-- A packet of another protocol: the Protocol-Reject has its length where the code should be. -/
theorem answered_protocol (hx : p.xcp = none) (ht : t ∈ handle clock s (.input p)) :
    Answered s p t ↔ ReplyOk s p := by
  have hl : p.proto ≠ Xcp.lcp.proto := fun h => by
    rw [Packet.xcp, if_pos h] at hx
    cases hx
  have hi : p.proto ≠ Xcp.ipcp.proto := fun h => by
    rw [Packet.xcp, if_neg hl, if_pos h] at hx
    cases hx
  unfold ReplyOk
  simp only [hx]
  unfold handle pppInput at ht
  simp only [if_neg hl, if_neg hi] at ht
  by_cases hip : p.proto = pppIp
  · rw [if_pos hip] at ht
    obtain rfl := Option.some_inj.mp ht
    exact iff_of_true nofun (.inl hip)
  rw [if_neg hip] at ht
  by_cases ho : s.lcp.state = .stOpened
  · rw [if_pos ho] at ht
    obtain rfl := Option.some_inj.mp ht
    refine iff_of_false (fun h => ?_) (not_or.mpr ⟨hip, not_not.mpr ho⟩)
    generalize hs' : ({ s with sent := [], inbuffer := fun i => p.mem (i + 2) } : PppState) = s' at h
    have hrep : replies (protocolReject p s') = [⟨true, slice (protocolReject p s').outbuffer 0
        (min (p.len - 2).toNat (pppMru - 6) + 6)⟩] := by
      have hnil : s'.sent = [] := by rw [← hs']
      have hsent : (protocolReject p s').sent = s'.sent ++ [⟨true, slice (protocolReject p s').outbuffer 0
        (min (p.len - 2).toNat (pppMru - 6) + 6)⟩] := rfl
      rw [replies, hsent, hnil]
      rfl
    have hgood := wellFormed_iff.mp (h _ (hrep ▸ List.mem_singleton_self _))
    have hcode := hgood.code
    unfold replyCodes at hcode
    rw [if_pos hx, List.mem_singleton] at hcode
    have hle := protocolReject_code p s'
    rw [hcode] at hle
    exact absurd hle (by decide)
  · rw [if_neg ho] at ht
    obtain rfl := Option.some_inj.mp ht
    exact iff_of_true nofun (.inr ho)

/-- **Replies are well-formed** exactly if `ReplyOk`: whatever came after the start, and whatever packet of a
consistent length comes then. -/
theorem replies_iff (clock : ℕ → ℕ) (magic : Dword) (r₁ r₂ : ℕ) (s₀ : PppState) (ops : List Op) :
    ∃ s ∈ pppStart clock magic r₁ r₂ s₀, ∃ t ∈ ops.foldlM (handle clock) s, ∀ p : Packet,
      ∃ u ∈ handle clock t (.input p), p.Consistent → (Answered t p u ↔ ReplyOk t p) := by
  obtain ⟨s, hs, hl⟩ := pppStart_layered clock magic r₁ r₂ s₀
  have hstep (s : PppState) (a : Op) (h : Layered (control s) ∧ Inv s) :
      ∃ t ∈ handle clock s a, Layered (control t) ∧ Inv t := by
    obtain ⟨t, ht, hl⟩ := handle_layered clock a h.1
    exact ⟨t, ht, hl, inv_handle a h.2 ht⟩
  obtain ⟨t, ht, hlt, hit⟩ := foldlM_invariant hstep ops ⟨hl, inv_pppStart magic r₁ r₂ s₀ hs⟩
  refine ⟨s, hs, t, ht, fun p => ?_⟩
  obtain ⟨u, hu, -⟩ := handle_layered clock (.input p) hlt
  refine ⟨u, hu, fun hp => ?_⟩
  cases hx : p.xcp with
  | none => exact answered_protocol hx hu
  | some x => exact answered_iff_replyOk hit hx (handle_eq hp hx ▸ hu)

/-- A Configure-Request of LCP with identifier 7 and without options. -/
def bareRequest : Packet := ⟨fun i => [0xc0, 0x21, 1, 7, 0, 4].getD i 0, 6⟩

/-- After the start, it gets back the four bytes 1, 7, 2, 4. -/
theorem configure_ack_bare : ∃ s ∈ pppStart (fun _ => 0) 0 0 0 {}, ∃ t ∈ handle (fun _ => 0) s (.input bareRequest),
    bareRequest.Consistent ∧ replies t = [⟨true, [1, 7, 2, 4]⟩] ∧ ¬ Answered s bareRequest t := by
  refine ⟨_, rfl, _, rfl, ⟨by decide, by decide⟩, rfl, fun h => ?_⟩
  obtain ⟨f, -, hf⟩ := h ⟨true, [1, 7, 2, 4]⟩ (List.mem_singleton_self _)
  have hlen := congrArg List.length hf
  simp [ReplyFrame.encode, be16] at hlen

end Watt32.Ppp
