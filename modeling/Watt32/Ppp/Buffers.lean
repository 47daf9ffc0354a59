import Watt32.Ppp.Layering
import Watt32.Ppp.Request

/-!
# The buffers of PPP

* `Quiet`, `Sound`, `StaysUp`: what the actions do to the packet at hand, to `outbuffer`, to an automaton that is up.
* `dispatchAction_rel`: a relation that the actions of one automaton obey is obeyed by events inside events too.
* `Written`: what `outbuffer` never looks like; **`inv_handle`**: it stays so.
-/

namespace Watt32.Ppp

open Machine Mem

/-! ## Events inside events -/

/-- The actions that send no event. -/
def Own (a : XcpAction) : Prop := a ≠ .acTls ∧ a ≠ .acTlf ∧ a ≠ .acTld ∧ a ≠ .acTlu

section Relation

variable {clock : ℕ → ℕ} {send : Xcp → PppEvent → PppState → Option PppState} {R : PppState → PppState → Prop}
  {x : Xcp} {s t : PppState}

/-- What relates a state to the one after a change of the phase. -/
theorem enterPhase_rel (hrefl : ∀ s, R s s) (htrans : ∀ {s t u}, R s t → R t u → R s u)
    (hphase : ∀ s phase, R s { s with phase := phase })
    (hsend : ∀ x e s, ¬ Outer e → ∀ t ∈ send x e s, R s t) {phase : PppPhase}
    (ht : t ∈ enterPhase send phase s) : R s t := by
  obtain ⟨u, hu, rfl⟩ := Option.map_eq_some_iff.mp ht
  refine htrans ?_ (hphase u phase)
  have hself (h : (some s : Option PppState) = some u) : R s u := Option.some_inj.mp h ▸ hrefl s
  cases phase with
  | phDead => exact hself hu
  | phEstablish =>
    by_cases hd : s.phase = .phDead
    · exact hsend .lcp .evUp s (by decide) u ((if_pos hd).symm.trans hu)
    · exact hself ((if_neg hd).symm.trans hu)
  | phAuthenticate => exact hself hu
  | phNetwork =>
    by_cases hd : s.phase = .phAuthenticate
    · exact hsend .ipcp .evUp s (by decide) u ((if_pos hd).symm.trans hu)
    · exact hself ((if_neg hd).symm.trans hu)
  | phTerminate => exact hsend .ipcp .evDown s (by decide) u hu

theorem changePhase_rel (hrefl : ∀ s, R s s) (htrans : ∀ {s t u}, R s t → R t u → R s u)
    (hphase : ∀ s phase, R s { s with phase := phase })
    (hsend : ∀ x e s, ¬ Outer e → ∀ t ∈ send x e s, R s t) {phase : PppPhase}
    (ht : t ∈ changePhase send phase s) : R s t := by
  obtain ⟨u, hu, ht⟩ := Option.mem_bind_iff.mp ht
  refine htrans (enterPhase_rel hrefl htrans hphase hsend hu) ?_
  by_cases hp : phase = .phAuthenticate
  · exact enterPhase_rel hrefl htrans hphase hsend ((if_pos hp).symm.trans ht)
  · exact Option.some_inj.mp ((if_neg hp).symm.trans ht) ▸ hrefl u

/-- **Events inside events**: it is enough to look at the actions that send none. -/
theorem dispatchAction_rel (hrefl : ∀ s, R s s) (htrans : ∀ {s t u}, R s t → R t u → R s u)
    (hphase : ∀ s phase, R s { s with phase := phase })
    (hsend : ∀ x e s, ¬ Outer e → ∀ t ∈ send x e s, R s t) (hset : ∀ s, R s (setAddresses s))
    (htlu : ∀ s, R s (s.modify x fun p => { p with restart := maxConfigure, timeout := 0 })) {a : XcpAction}
    (hown : Own a → R s t) (ht : t ∈ dispatchAction clock send x s a) : R s t := by
  have hchange {phase : PppPhase} {s t : PppState} (h : t ∈ changePhase send phase s) : R s t :=
    changePhase_rel hrefl htrans hphase hsend h
  have hself (h : (some s : Option PppState) = some t) : R s t := Option.some_inj.mp h ▸ hrefl s
  by_cases ha : Own a
  · exact hown ha
  cases a with
  | acTls =>
    by_cases hx : x = .ipcp
    · exact hsend .lcp .evOpen s (by decide) t ((if_pos hx).symm.trans ht)
    · exact hchange ((if_neg hx).symm.trans ht)
  | acTlf =>
    by_cases hx : x = .ipcp
    · exact hsend .lcp .evClose s (by decide) t ((if_pos hx).symm.trans ht)
    · exact hchange ((if_neg hx).symm.trans ht)
  | acTld =>
    by_cases hx : x = .lcp
    · exact hchange ((if_pos hx).symm.trans ht)
    · exact hself ((if_neg hx).symm.trans ht)
  | acTlu =>
    obtain ⟨u, hu, rfl⟩ := Option.map_eq_some_iff.mp ht
    refine htrans ?_ (htlu u)
    by_cases hx : x = .lcp
    · exact hchange ((if_pos hx).symm.trans hu)
    · exact Option.some_inj.mp ((if_neg hx).symm.trans hu) ▸ hset s
  | _ => exact absurd ⟨nofun, nofun, nofun, nofun⟩ ha

end Relation

/-! ## The packet at hand -/

/-- The actions that answer a packet. -/
def Reply (a : XcpAction) : Prop := a = .acSta ∨ a = .acSca ∨ a = .acScn ∨ a = .acScj ∨ a = .acSer

instance (a : XcpAction) : Decidable (Reply a) := inferInstanceAs (Decidable (_ ∨ _))

/-- The answers of this step. -/
def replies (s : PppState) : List Sent := s.sent.filter (·.reply)

/-- The packet stays as it was, and it was not answered. -/
def Quiet (s t : PppState) : Prop :=
  t.inbuffer = s.inbuffer ∧ t.bp = s.bp ∧ t.mlen = s.mlen ∧ replies t = replies s

variable {clock : ℕ → ℕ} {x y : Xcp} {e : PppEvent} {s t u : PppState}

theorem Quiet.refl (s : PppState) : Quiet s s := ⟨rfl, rfl, rfl, rfl⟩

theorem Quiet.trans (h : Quiet s t) (h' : Quiet t u) : Quiet s u :=
  ⟨h'.1.trans h.1, h'.2.1.trans h.2.1, h'.2.2.1.trans h.2.2.1, h'.2.2.2.trans h.2.2.2⟩

theorem quiet_modify (x : Xcp) (f : PppXcp → PppXcp) (s : PppState) : Quiet s (s.modify x f) := by
  cases x <;> exact ⟨rfl, rfl, rfl, rfl⟩

/-- Sending a packet of one's own is not an answer. -/
theorem quiet_pppWrite (buf : ℕ → Byte) (len : ℕ) (s : PppState) : Quiet s (pppWrite false buf len s) :=
  ⟨rfl, rfl, rfl, by simp [replies, pppWrite]⟩

theorem quiet_startTimer (x : Xcp) (s : PppState) : Quiet s (startTimer clock x s) :=
  quiet_modify x _ s

theorem quiet_codeId (x : Xcp) (code : Byte) (s : PppState) : Quiet s (codeId x code s) :=
  quiet_modify x _ s

theorem quiet_createRequest (x : Xcp) (s : PppState) : Quiet s (createRequest x s) :=
  quiet_codeId x codeConfReq s

/-- The actions that are no answers leave the packet alone. -/
theorem quiet_dispatchAction {send : Xcp → PppEvent → PppState → Option PppState}
    (hsend : ∀ x e s, ¬ Outer e → ∀ t ∈ send x e s, Quiet s t) {a : XcpAction} (ha : ¬ Reply a)
    (ht : t ∈ dispatchAction clock send x s a) : Quiet s t := by
  refine dispatchAction_rel Quiet.refl Quiet.trans (fun s _ => Quiet.refl s) hsend (fun s => Quiet.refl s)
    (fun s => quiet_modify x _ s) (fun ho => ?_) ht
  cases a with
  | acIrc =>
    obtain rfl := Option.some_inj.mp ht
    exact quiet_modify x _ s
  | acScr =>
    obtain rfl := Option.some_inj.mp ht
    refine Quiet.trans ?_ (quiet_startTimer x _)
    split_ifs
    · exact ((quiet_modify x _ s).trans (quiet_createRequest x _)).trans (quiet_pppWrite _ _ _)
    · exact Quiet.refl s
  | acStr =>
    obtain rfl := Option.some_inj.mp ht
    refine Quiet.trans ?_ (quiet_startTimer x _)
    split_ifs
    · exact ((quiet_modify x _ s).trans (quiet_codeId x _ _)).trans (quiet_pppWrite _ _ _)
    · exact Quiet.refl s
  | acZrc =>
    obtain rfl := Option.some_inj.mp ht
    exact quiet_modify x _ s
  | acTls => exact absurd rfl ho.1
  | acTlf => exact absurd rfl ho.2.1
  | acTld => exact absurd rfl ho.2.2.1
  | acTlu => exact absurd rfl ho.2.2.2
  | _ => exact absurd (by decide) ha

/-- An event inside an event is no answer. -/
theorem inner_quiet : ∀ (st : XcpState) (e : PppEvent), ¬ Outer e → ∀ a ∈ (pppDispatch st e).2, ¬ Reply a := by
  decide

theorem quiet_sendEvent : ∀ (n : ℕ) (x : Xcp) (e : PppEvent) (s : PppState), ¬ Outer e →
    ∀ t ∈ sendEvent clock n x e s, Quiet s t
  | 0, _, _, _, _, _, ht => absurd ht (Option.not_mem_none _)
  | n + 1, x, e, s, he, t, ht => by
    refine Quiet.trans (quiet_modify x _ s) (foldlM_rel Quiet.refl Quiet.trans (fun a ha s t ht => ?_) ht)
    exact quiet_dispatchAction (quiet_sendEvent n) (inner_quiet _ e he a ha) ht

/-! ## The output buffer -/

/-- What a Configure-Reject or Configure-Nak in the buffer looks like: it has options, and one of two lengths;
no Configure-Ack is there. -/
def Written (x : Xcp) (out : ℕ → Byte) (up : ℕ) : Prop :=
  get16 out 0 = x.proto → out 2 ≠ codeConfAck ∧ (out 2 = codeConfNak ∨ out 2 = codeConfRej →
    out 5 = 4 ∧ (out 4 = 0 ∨ out 4 = codeConfRej) ∧ 6 < up ∧ (out 2 = codeConfNak → 6 ∣ up))

/-- The buffer is at least as sound as before. -/
def Sound (s t : PppState) : Prop :=
  ((s.outbuffer 2).toNat ≤ 6 → (t.outbuffer 2).toNat ≤ 6) ∧
    ∀ x, Written x s.outbuffer s.up → Written x t.outbuffer t.up

theorem Sound.refl (s : PppState) : Sound s s := ⟨id, fun _ => id⟩

theorem Sound.trans (h : Sound s t) (h' : Sound t u) : Sound s u :=
  ⟨h'.1 ∘ h.1, fun x => h'.2 x ∘ h.2 x⟩

/-- A code that makes the buffer sound, whatever follows it. -/
def Plain (code : Byte) : Prop := code = codeConfReq ∨ code = codeTermReq ∨ code = codeTermAck

theorem written_plain {out : ℕ → Byte} {up : ℕ} (h : Plain (out 2)) : Written x out up := by
  intro _
  rcases h with h | h | h <;> rw [h] <;> exact ⟨by decide, fun hc => absurd hc (by decide)⟩

theorem sound_plain (h : Plain (t.outbuffer 2)) : Sound s t := by
  refine ⟨fun _ => ?_, fun x _ => written_plain h⟩
  rcases h with h | h | h <;> rw [h] <;> decide

theorem sound_modify (x : Xcp) (f : PppXcp → PppXcp) (s : PppState) : Sound s (s.modify x f) := by
  cases x <;> exact Sound.refl _

theorem put_header (out : ℕ → Byte) (x : Xcp) (code ident : Byte) : put out 0 (header x code ident) 2 = code := rfl

theorem codeId_code (x : Xcp) (code : Byte) (s : PppState) : (codeId x code s).outbuffer 2 = code := by
  cases x <;> rfl

/-- The options of a request are behind its header. -/
theorem createOptions_low (os : ℕ → OptionState) : ∀ (ts : List XcpType) (i : ℕ) (r : (ℕ → Byte) × ℕ) {k : ℕ},
    k < r.2 → (createOptions os ts i r).1 k = r.1 k
  | [], _, _, _, _ => rfl
  | t :: ts, i, (out, bp), k, hk => by
    unfold createOptions
    split_ifs
    · exact createOptions_low os ts (i + 1) (out, bp) hk
    · refine (createOptions_low os ts (i + 1) _ (Nat.lt_of_lt_of_le hk (Nat.le_add_right bp _))).trans ?_
      exact put_of_lt hk

theorem createRequest_code (x : Xcp) (s : PppState) : (createRequest x s).outbuffer 2 = codeConfReq := by
  have hlow : (createOptions ((codeId x codeConfReq s).xcp x).opts x.types 0
      ((codeId x codeConfReq s).outbuffer, 6)).1 2 = codeConfReq :=
    (createOptions_low _ _ _ _ (show 2 < 6 by decide)).trans (codeId_code x codeConfReq s)
  have hout : ∃ len, (createRequest x s).outbuffer = putLength (createOptions
      ((codeId x codeConfReq s).xcp x).opts x.types 0 ((codeId x codeConfReq s).outbuffer, 6)).1 4 len := ⟨_, rfl⟩
  obtain ⟨len, hout⟩ := hout
  rw [hout, putLength, put_of_lt (by decide), hlow]

/-- With a Configure-Nak or a Configure-Reject that has options, the length may be touched. -/
theorem sound_scn (s : PppState) : Sound s { s with outbuffer := Function.update s.outbuffer 4 codeConfRej } :=
  ⟨id, fun _ h hx => ⟨(h hx).1, fun hc => ⟨((h hx).2 hc).1, .inr rfl, ((h hx).2 hc).2.2⟩⟩⟩

/-- All actions leave the buffer sound. -/
theorem sound_dispatchAction {send : Xcp → PppEvent → PppState → Option PppState}
    (hsend : ∀ x e s, ¬ Outer e → ∀ t ∈ send x e s, Sound s t) {a : XcpAction}
    (ht : t ∈ dispatchAction clock send x s a) : Sound s t := by
  refine dispatchAction_rel Sound.refl Sound.trans (fun s _ => Sound.refl s) hsend (fun s => Sound.refl s)
    (fun s => sound_modify x _ s) (fun ho => ?_) ht
  cases a with
  | acIrc =>
    obtain rfl := Option.some_inj.mp ht
    exact sound_modify x _ s
  | acScr =>
    obtain rfl := Option.some_inj.mp ht
    refine Sound.trans ?_ (sound_modify x _ _)
    split_ifs
    · exact sound_plain (.inl (createRequest_code x _))
    · exact Sound.refl s
  | acStr =>
    obtain rfl := Option.some_inj.mp ht
    refine Sound.trans ?_ (sound_modify x _ _)
    split_ifs
    · refine sound_plain (.inr (.inl ?_))
      exact codeId_code x codeTermReq (s.modify x fun p => { p with restart := p.restart - 1 })
    · exact Sound.refl s
  | acSta =>
    obtain rfl := Option.some_inj.mp ht
    exact sound_plain (.inr (.inr rfl))
  | acSca =>
    obtain rfl := Option.some_inj.mp ht
    exact sound_modify x _ s
  | acScn =>
    obtain rfl := Option.some_inj.mp ht
    refine Sound.trans (sound_modify x (fun p => { p with naksSent := p.naksSent + 1 }) s) ?_
    have hb : (s.modify x fun p => { p with naksSent := p.naksSent + 1 }).outbuffer = s.outbuffer := by
      cases x <;> rfl
    by_cases hn : maxFailure ≤ (s.xcp x).naksSent
    · simp only [if_pos hn, ← hb]
      exact sound_scn _
    · simp only [if_neg hn, ← hb]
      exact Sound.refl _
  | acScj =>
    obtain rfl := Option.some_inj.mp ht
    exact Sound.refl s
  | acZrc =>
    obtain rfl := Option.some_inj.mp ht
    exact sound_modify x _ s
  | acSer =>
    obtain rfl := Option.some_inj.mp ht
    exact Sound.refl s
  | acTls => exact absurd rfl ho.1
  | acTlf => exact absurd rfl ho.2.1
  | acTld => exact absurd rfl ho.2.2.1
  | acTlu => exact absurd rfl ho.2.2.2

theorem sound_sendEvent : ∀ (n : ℕ) (x : Xcp) (e : PppEvent) (s : PppState), ∀ t ∈ sendEvent clock n x e s, Sound s t
  | 0, _, _, _, _, ht => absurd ht (Option.not_mem_none _)
  | n + 1, x, e, s, t, ht => by
    refine Sound.trans (sound_modify x _ s) (foldlM_rel Sound.refl Sound.trans (fun a _ s t ht => ?_) ht)
    exact sound_dispatchAction (fun x e s _ => sound_sendEvent n x e s) ht

/-! ## Automata that are up -/

/-- Nothing gets up, and what stays up can send requests if it could. -/
def StaysUp (y : Xcp) (s t : PppState) : Prop :=
  (t.xcp y).state = .stOpened → (s.xcp y).state = .stOpened ∧ (0 < (s.xcp y).restart → 0 < (t.xcp y).restart)

theorem StaysUp.refl (s : PppState) : StaysUp y s s := fun h => ⟨h, id⟩

theorem StaysUp.trans (h : StaysUp y s t) (h' : StaysUp y t u) : StaysUp y s u := fun hu =>
  ⟨(h (h' hu).1).1, (h' hu).2 ∘ (h (h' hu).1).2⟩

theorem xcp_modify_self (x : Xcp) (f : PppXcp → PppXcp) (s : PppState) : (s.modify x f).xcp x = f (s.xcp x) := by
  cases x <;> rfl

theorem xcp_modify_ne (h : y ≠ x) (f : PppXcp → PppXcp) (s : PppState) : (s.modify x f).xcp y = s.xcp y := by
  cases x <;> cases y <;> first | rfl | exact absurd rfl h

theorem staysUp_of_xcp (h : t.xcp y = s.xcp y) : StaysUp y s t := by
  unfold StaysUp
  rw [h]
  exact fun hs => ⟨hs, id⟩

/-- Only the automaton `x` is concerned, and not its state. -/
def Concerns (x y : Xcp) (s t : PppState) : Prop :=
  (t.xcp y).state = (s.xcp y).state ∧ (y ≠ x → t.xcp y = s.xcp y)

theorem Concerns.trans (h : Concerns x y s t) (h' : Concerns x y t u) : Concerns x y s u :=
  ⟨h'.1.trans h.1, fun hy => (h'.2 hy).trans (h.2 hy)⟩

theorem concerns_of_xcp (h : t.xcp y = s.xcp y) : Concerns x y s t := ⟨by rw [h], fun _ => h⟩

theorem concerns_modify (y : Xcp) (f : PppXcp → PppXcp) (s : PppState) (hf : ∀ p, (f p).state = p.state) :
    Concerns x y s (s.modify x f) := by
  refine ⟨?_, fun h => xcp_modify_ne h f s⟩
  by_cases h : y = x
  · rw [h, xcp_modify_self, hf]
  · rw [xcp_modify_ne h]

theorem concerns_pppWrite (reply : Bool) (buf : ℕ → Byte) (len : ℕ) (s : PppState) :
    Concerns x y s (pppWrite reply buf len s) :=
  concerns_of_xcp (by cases y <;> rfl)

theorem concerns_startTimer (s : PppState) : Concerns x y s (startTimer clock x s) :=
  (concerns_modify y (fun p => { p with timeout := clock s.readings + s.timeoutPeriod }) s fun _ => rfl).trans
    (concerns_of_xcp (by cases y <;> rfl))

theorem concerns_codeId (code : Byte) (s : PppState) : Concerns x y s (codeId x code s) :=
  (concerns_modify y (fun p => { p with ident := p.ident + 1 }) s fun _ => rfl).trans
    (concerns_of_xcp (by cases y <;> rfl))

theorem concerns_createRequest (s : PppState) : Concerns x y s (createRequest x s) :=
  (concerns_codeId codeConfReq s).trans (concerns_of_xcp (by cases y <;> rfl))

theorem concerns_tryOne (s : PppState) :
    Concerns x y s (s.modify x fun p => { p with restart := p.restart - 1 }) :=
  concerns_modify y _ s fun _ => rfl

/-- An action that sends no event concerns its own automaton. -/
theorem own_xcp {send : Xcp → PppEvent → PppState → Option PppState} {a : XcpAction} (ho : Own a)
    (ht : t ∈ dispatchAction clock send x s a) (y : Xcp) : Concerns x y s t := by
  cases a with
  | acIrc =>
    obtain rfl := Option.some_inj.mp ht
    exact (concerns_modify y (fun p =>
      { p with restart := if s.phase = .phTerminate then maxTerminate else maxConfigure }) s fun _ => rfl).trans
      (concerns_of_xcp (by cases y <;> rfl))
  | acScr =>
    obtain rfl := Option.some_inj.mp ht
    refine Concerns.trans ?_ (concerns_startTimer _)
    split_ifs
    · exact ((concerns_tryOne s).trans (concerns_createRequest _)).trans (concerns_pppWrite _ _ _ _)
    · exact concerns_of_xcp rfl
  | acStr =>
    obtain rfl := Option.some_inj.mp ht
    refine Concerns.trans ?_ (concerns_startTimer _)
    split_ifs
    · exact ((concerns_tryOne s).trans (concerns_codeId _ _)).trans (concerns_pppWrite _ _ _ _)
    · exact concerns_of_xcp rfl
  | acSta =>
    obtain rfl := Option.some_inj.mp ht
    exact concerns_of_xcp (by cases y <;> rfl)
  | acSca =>
    obtain rfl := Option.some_inj.mp ht
    have hc : Concerns x y s (copyPeerValues x s) := concerns_modify y _ s fun _ => rfl
    exact (hc.trans (concerns_of_xcp (by cases y <;> rfl))).trans (concerns_pppWrite _ _ _ _)
  | acScn =>
    obtain rfl := Option.some_inj.mp ht
    have hc : Concerns x y s (s.modify x fun p => { p with naksSent := p.naksSent + 1 }) :=
      concerns_modify y _ s fun _ => rfl
    exact (hc.trans (concerns_of_xcp (by cases y <;> rfl))).trans (concerns_pppWrite _ _ _ _)
  | acScj =>
    obtain rfl := Option.some_inj.mp ht
    exact concerns_pppWrite _ _ _ _
  | acZrc =>
    obtain rfl := Option.some_inj.mp ht
    exact (concerns_modify y (fun p => { p with restart := 0 }) s fun _ => rfl).trans
      (concerns_of_xcp (by cases y <;> rfl))
  | acSer =>
    obtain rfl := Option.some_inj.mp ht
    exact concerns_of_xcp (by cases y <;> rfl)
  | acTls => exact absurd rfl ho.1
  | acTlf => exact absurd rfl ho.2.1
  | acTld => exact absurd rfl ho.2.2.1
  | acTlu => exact absurd rfl ho.2.2.2

/-- No action gets an automaton up: events do. -/
theorem opened_of_dispatchAction {send : Xcp → PppEvent → PppState → Option PppState}
    (hsend : ∀ x e s, ¬ Outer e → ∀ t ∈ send x e s, StaysUp y s t) {a : XcpAction}
    (ht : t ∈ dispatchAction clock send x s a) : (t.xcp y).state = .stOpened → (s.xcp y).state = .stOpened := by
  refine dispatchAction_rel (R := fun s t => (t.xcp y).state = .stOpened → (s.xcp y).state = .stOpened)
    (fun _ => id) (fun h h' => h ∘ h') (fun s _ => ?_) (fun x e s he t ht h => (hsend x e s he t ht h).1)
    (fun s => ?_) (fun s => ?_) (fun ho => ?_) ht
  · cases y <;> exact id
  · cases y <;> exact id
  · cases x <;> cases y <;> exact id
  · rw [(own_xcp ho ht y).1]
    exact id

/-- The actions of one automaton leave the other one up as it is. -/
theorem staysUp_dispatchAction {send : Xcp → PppEvent → PppState → Option PppState} (hy : y ≠ x)
    (hsend : ∀ x e s, ¬ Outer e → ∀ t ∈ send x e s, StaysUp y s t) {a : XcpAction}
    (ht : t ∈ dispatchAction clock send x s a) : StaysUp y s t := by
  refine dispatchAction_rel (StaysUp.refl (y := y)) StaysUp.trans (fun s _ => ?_) hsend (fun s => ?_) (fun s => ?_)
    (fun ho => staysUp_of_xcp ((own_xcp ho ht y).2 hy)) ht
  · exact staysUp_of_xcp (by cases y <;> rfl)
  · exact staysUp_of_xcp (by cases y <;> rfl)
  · exact staysUp_of_xcp (xcp_modify_ne hy _ s)

theorem inner_opened : ∀ (st : XcpState) (e : PppEvent), ¬ Outer e →
    (pppDispatch st e).1.getD st = .stOpened → st = .stOpened ∧ (pppDispatch st e).2 = [] := by
  decide

theorem enterState_self (x : Xcp) (next : Option XcpState) (s : PppState) :
    (enterState x next s).xcp x = { s.xcp x with state := next.getD (s.xcp x).state } := by
  cases x <;> rfl

/-- If an automaton is up after some of its actions it was so when they began. -/
theorem opened_of_foldlM {send : Xcp → PppEvent → PppState → Option PppState}
    (hsend : ∀ x e s, ¬ Outer e → ∀ t ∈ send x e s, StaysUp y s t) {as : List XcpAction}
    (ht : t ∈ as.foldlM (dispatchAction clock send x) s) :
    (t.xcp y).state = .stOpened → (s.xcp y).state = .stOpened := by
  refine foldlM_rel (R := fun s t => (t.xcp y).state = .stOpened → (s.xcp y).state = .stOpened) (fun _ => id) ?_
    (fun _ _ _ _ ht => opened_of_dispatchAction hsend ht) ht
  exact fun h h' => h ∘ h'

/-- An event inside an event gets nothing up. -/
theorem staysUp_sendEvent : ∀ (n : ℕ) (x : Xcp) (e : PppEvent) (s : PppState), ¬ Outer e →
    ∀ t ∈ sendEvent clock n x e s, StaysUp y s t
  | 0, _, _, _, _, _, ht => absurd ht (Option.not_mem_none _)
  | n + 1, x, e, s, he, t, ht => by
    by_cases hy : y = x
    · intro hup
      subst hy
      have hopen := opened_of_foldlM (staysUp_sendEvent n) ht hup
      rw [enterState_self] at hopen
      obtain ⟨hst, has⟩ := inner_opened _ e he hopen
      rw [sendEvent, has] at ht
      obtain rfl := Option.some_inj.mp ht
      rw [enterState_self]
      exact ⟨hst, id⟩
    · refine StaysUp.trans (staysUp_of_xcp (xcp_modify_ne hy _ s))
        (foldlM_rel StaysUp.refl StaysUp.trans (fun a _ s t ht => ?_) ht)
      exact staysUp_dispatchAction hy (staysUp_sendEvent n) ht

/-- An automaton that is up can send requests. -/
def Restartable (s : PppState) : Prop := ∀ y, (s.xcp y).state = .stOpened → 0 < (s.xcp y).restart

/-- How an automaton is, or gets, up. -/
theorem opened_cases : ∀ (st : XcpState) (e : PppEvent), (pppDispatch st e).1.getD st = .stOpened →
    (st = .stOpened ∧ (pppDispatch st e).2 ∈ [[], [.acScj], [.acSer]]) ∨
      (pppDispatch st e).2 ∈ [[.acSca, .acTlu], [.acIrc, .acTlu]] := by
  decide

theorem restartable_sendEvent (n : ℕ) (hs : Restartable s) (ht : t ∈ sendEvent clock n x e s) : Restartable t := by
  cases n with
  | zero => exact absurd ht (Option.not_mem_none _)
  | succ n =>
    intro y hup
    have hsend : ∀ x e s, ¬ Outer e → ∀ t ∈ sendEvent clock n x e s, StaysUp y s t := staysUp_sendEvent n
    by_cases hy : y = x
    · subst hy
      have hopen := opened_of_foldlM hsend ht hup
      rw [enterState_self] at hopen
      rcases opened_cases _ e hopen with ⟨hst, has⟩ | has
      · -- it was up: nothing is counted
        have hx : t.xcp y = (enterState y (pppDispatch (s.xcp y).state e).1 s).xcp y := by
          rw [sendEvent] at ht
          simp only [List.mem_cons, List.not_mem_nil, or_false] at has
          rcases has with has | has | has <;> rw [has] at ht <;> obtain rfl := Option.some_inj.mp ht <;>
            cases y <;> rfl
        rw [hx, enterState_self]
        exact hs y hst
      · -- it gets up: the last action counts from the start
        have hlast : ∃ a, (pppDispatch (s.xcp y).state e).2 = [a, .acTlu] := by
          simp only [List.mem_cons, List.not_mem_nil, or_false] at has
          exact has.elim (fun h => ⟨_, h⟩) fun h => ⟨_, h⟩
        obtain ⟨a, ha⟩ := hlast
        rw [sendEvent, ha, foldlM_pair] at ht
        obtain ⟨u, -, ht⟩ := Option.mem_bind_iff.mp ht
        obtain ⟨w, -, rfl⟩ := Option.map_eq_some_iff.mp ht
        rw [xcp_modify_self]
        exact (by decide : (0 : ℤ) < maxConfigure)
    · have hstay : StaysUp y (enterState x (pppDispatch (s.xcp x).state e).1 s) t :=
        foldlM_rel StaysUp.refl StaysUp.trans (fun a _ s t ht => staysUp_dispatchAction hy hsend ht) ht
      have hne : (enterState x (pppDispatch (s.xcp x).state e).1 s).xcp y = s.xcp y := xcp_modify_ne hy _ s
      have hst := hstay hup
      rw [hne] at hst
      exact hst.2 (hs y hst.1)

/-! ## A request of one's own -/

/-- The states in which LCP negotiates. -/
def Negotiating (st : XcpState) : Prop := st = .stReqSent ∨ st = .stAckRcvd ∨ st = .stAckSent

instance (st : XcpState) : Decidable (Negotiating st) := inferInstanceAs (Decidable (_ ∨ _))

/-- While LCP negotiates there is no Protocol-Reject in the buffer. -/
def Ready (s : PppState) : Prop := Negotiating s.lcp.state → Written .lcp s.outbuffer s.up

theorem Ready.of_sound (hs : Ready s) (h : Sound s t) (hst : t.lcp.state = s.lcp.state) : Ready t := by
  intro ht
  exact h.2 .lcp (hs (hst ▸ ht))

/-- An event for IPCP alone, while LCP is not to be opened. -/
theorem ipcp_down (n : ℕ) (hs : s.lcp.state = .stReqSent ∨ s.lcp.state = .stAckSent)
    (ht : t ∈ sendEvent clock n .ipcp .evDown s) : t.lcp = s.lcp := by
  cases n with
  | zero => exact absurd ht (Option.not_mem_none _)
  | succ n =>
    rw [sendEvent] at ht
    have hx : (enterState .ipcp (pppDispatch (s.xcp .ipcp).state .evDown).1 s).lcp = s.lcp := rfl
    generalize enterState .ipcp (pppDispatch (s.xcp .ipcp).state .evDown).1 s = s' at ht hx
    have hacts : ∀ st, (pppDispatch st .evDown).2 ∈ [[], [.acTls], [XcpAction.acTld]] := by decide
    have has := hacts (s.xcp .ipcp).state
    simp only [List.mem_cons, List.not_mem_nil, or_false] at has
    rw [← hx] at hs ⊢
    rcases has with has | has | has <;> rw [has] at ht
    · obtain rfl := Option.some_inj.mp ht
      rfl
    · -- IPCP was stopped, and opens LCP, which is on its way already
      rw [foldlM_singleton] at ht
      cases n with
      | zero => exact absurd ht (Option.not_mem_none _)
      | succ n =>
        have hopen : pppDispatch (s'.xcp .lcp).state .evOpen = (some s'.lcp.state, []) := by
          change pppDispatch s'.lcp.state .evOpen = _
          rcases hs with h | h <;> rw [h] <;> rfl
        change t ∈ sendEvent clock (n + 1) .lcp .evOpen s' at ht
        rw [sendEvent, hopen] at ht
        obtain rfl := Option.some_inj.mp ht
        rfl
    · rw [foldlM_singleton] at ht
      obtain rfl := Option.some_inj.mp ht
      rfl

/-- So LCP gets down. -/
theorem lcp_down {send : Xcp → PppEvent → PppState → Option PppState}
    (hsend : ∀ t ∈ send .ipcp .evDown s, t.lcp = s.lcp) (ht : t ∈ dispatchAction clock send .lcp s .acTld) :
    t.lcp = s.lcp := by
  obtain ⟨u, hu, ht⟩ := Option.mem_bind_iff.mp (show t ∈ changePhase send .phTerminate s from ht)
  obtain ⟨v, hv, rfl⟩ := Option.map_eq_some_iff.mp hu
  obtain rfl := Option.some_inj.mp ht
  exact hsend v hv

theorem startTimer_outbuffer (s : PppState) : (startTimer clock x s).outbuffer = s.outbuffer := by
  cases x <;> rfl

/-- A request that can be sent is in the buffer then. -/
theorem scr_code {send : Xcp → PppEvent → PppState → Option PppState} (hs : 0 < (s.xcp x).restart)
    (ht : t ∈ dispatchAction clock send x s .acScr) : t.outbuffer 2 = codeConfReq := by
  obtain rfl := Option.some_inj.mp ht
  rw [if_pos hs, startTimer_outbuffer]
  exact createRequest_code x (s.modify x fun p => { p with restart := p.restart - 1 })

/-- The counter was just set. -/
theorem irc_scr_code {send : Xcp → PppEvent → PppState → Option PppState}
    (ht : t ∈ [.acIrc, .acScr].foldlM (dispatchAction clock send x) s) : t.outbuffer 2 = codeConfReq := by
  rw [foldlM_pair] at ht
  obtain ⟨u, hu, ht⟩ := Option.mem_bind_iff.mp ht
  refine scr_code ?_ ht
  obtain rfl := Option.some_inj.mp hu
  have hpos : 0 < if s.phase = .phTerminate then maxTerminate else maxConfigure := by split_ifs <;> decide
  cases x <;> exact hpos

/-- The automaton was up. -/
theorem tld_scr_code (n : ℕ) (hs : 0 < (s.xcp x).restart)
    (hst : (s.xcp x).state = .stReqSent ∨ (s.xcp x).state = .stAckSent)
    (ht : t ∈ [.acTld, .acScr].foldlM (dispatchAction clock (sendEvent clock n) x) s) :
    t.outbuffer 2 = codeConfReq := by
  rw [foldlM_pair] at ht
  obtain ⟨u, hu, ht⟩ := Option.mem_bind_iff.mp ht
  refine scr_code ?_ ht
  cases x with
  | lcp =>
    have hlcp : u.lcp = s.lcp := lcp_down (fun t ht => ipcp_down n hst ht) hu
    change 0 < u.lcp.restart
    rw [hlcp]
    exact hs
  | ipcp =>
    obtain rfl := Option.some_inj.mp hu
    exact hs

/-- The actions leave LCP ready if the events in them do. -/
theorem ready_dispatchAction (n : ℕ) (hsend : ∀ x e s, ¬ Outer e → ∀ t ∈ sendEvent clock n x e s, Ready s → Ready t)
    {a : XcpAction} (ht : t ∈ dispatchAction clock (sendEvent clock n) x s a) : Ready s → Ready t := by
  refine dispatchAction_rel (R := fun s t => Ready s → Ready t) (fun _ => id) (fun h h' => h' ∘ h)
    (fun s _ => id) hsend (fun s => id) (fun s hs => ?_) (fun ho hs => ?_) ht
  · exact hs.of_sound (sound_modify x _ s) (by cases x <;> rfl)
  · exact hs.of_sound (sound_dispatchAction (fun x e s _ => sound_sendEvent n x e s) ht) (own_xcp ho ht .lcp).1

/-- How LCP comes to negotiate. -/
theorem negotiating_cases : ∀ (st : XcpState) (e : PppEvent), Negotiating ((pppDispatch st e).1.getD st) →
    Negotiating st ∨ (pppDispatch st e).2.take 2 = [.acIrc, .acScr] ∨
      (st = .stOpened ∧ Outer e ∧ (pppDispatch st e).2.take 2 = [.acTld, .acScr] ∧
        ((pppDispatch st e).1 = some .stReqSent ∨ (pppDispatch st e).1 = some .stAckSent)) := by
  decide

/-- **LCP is ready**: when it begins to negotiate it sends a request. -/
theorem ready_sendEvent : ∀ (n : ℕ) (x : Xcp) (e : PppEvent) (s : PppState), (Outer e → Restartable s) →
    ∀ t ∈ sendEvent clock n x e s, Ready s → Ready t
  | 0, _, _, _, _, _, ht, _ => absurd ht (Option.not_mem_none _)
  | n + 1, x, e, s, hr, t, ht, hs => by
    have hsend (y : Xcp) (e' : PppEvent) (u : PppState) (he : ¬ Outer e') :=
      ready_sendEvent n y e' u fun ho => absurd ho he
    have hfold : ∀ (as : List XcpAction) (u v : PppState),
        v ∈ as.foldlM (dispatchAction clock (sendEvent clock n) x) u → Ready u → Ready v := fun as u v hv =>
      foldlM_rel (R := fun s t => Ready s → Ready t) (fun _ => id) (fun h h' => h' ∘ h)
        (fun _ _ _ _ ht => ready_dispatchAction n hsend ht) hv
    -- a request that is in the buffer keeps it sound, whatever else is done
    have hrest {as : List XcpAction} {u : PppState} (hu : u.outbuffer 2 = codeConfReq)
        (h : t ∈ as.foldlM (dispatchAction clock (sendEvent clock n) x) u) : Ready t := by
      have hsound : Sound u t := foldlM_rel Sound.refl Sound.trans
        (fun _ _ _ _ ht => sound_dispatchAction (fun x e s _ => sound_sendEvent n x e s) ht) h
      exact fun _ => hsound.2 .lcp (written_plain (.inl hu))
    rw [sendEvent] at ht
    cases x with
    | ipcp => exact hfold _ _ _ ht hs
    | lcp =>
      by_cases hN : Negotiating ((pppDispatch s.lcp.state e).1.getD s.lcp.state)
      · rcases negotiating_cases _ e hN with hst | has | ⟨hst, ho, has, hnext⟩
        · exact hfold _ _ _ ht fun _ => hs hst
        · have htake := List.take_append_drop 2 (pppDispatch (s.xcp .lcp).state e).2
          rw [← htake, List.foldlM_append] at ht
          obtain ⟨u, hu, ht⟩ := Option.mem_bind_iff.mp ht
          exact hrest (irc_scr_code (has ▸ hu)) ht
        · have htake := List.take_append_drop 2 (pppDispatch (s.xcp .lcp).state e).2
          rw [← htake, List.foldlM_append] at ht
          obtain ⟨u, hu, ht⟩ := Option.mem_bind_iff.mp ht
          have hpos : 0 < s.lcp.restart := hr ho .lcp hst
          refine hrest (tld_scr_code n (x := .lcp) (s := enterState .lcp (pppDispatch s.lcp.state e).1 s) hpos ?_
            (has ▸ hu)) ht
          refine hnext.imp (fun h => ?_) fun h => ?_ <;>
          · change (pppDispatch s.lcp.state e).1.getD s.lcp.state = _
            rw [h]
            rfl
      · exact hfold _ _ _ ht fun h => absurd h hN

/-! ## Steps -/

/-- What the buffers keep. -/
structure Inv (s : PppState) : Prop where
  code : (s.outbuffer 2).toNat ≤ 6
  ipcp : Written .ipcp s.outbuffer s.up
  lcp : Ready s
  restart : Restartable s

theorem inv_sendEvent (n : ℕ) (hs : Inv s) (ht : t ∈ sendEvent clock n x e s) : Inv t := by
  have hsound : Sound s t := sound_sendEvent n x e s t ht
  exact ⟨hsound.1 hs.code, hsound.2 .ipcp hs.ipcp, ready_sendEvent n x e s (fun _ => hs.restart) t ht hs.lcp,
    restartable_sendEvent n hs.restart ht⟩

/-- What is sound and leaves the automata alone. -/
theorem Inv.of_sound (hs : Inv s) (h : Sound s t)
    (hx : ∀ y, (t.xcp y).state = (s.xcp y).state ∧ (t.xcp y).restart = (s.xcp y).restart) : Inv t := by
  refine ⟨h.1 hs.code, h.2 .ipcp hs.ipcp, hs.lcp.of_sound h (hx .lcp).1, fun y hy => ?_⟩
  rw [(hx y).2]
  exact hs.restart y ((hx y).1.symm.trans hy)

/-- A header, byte by byte. -/
theorem slice_eq_header {out : ℕ → Byte} {code ident : Byte} (h : slice out 0 6 = header x code ident) :
    get16 out 0 = x.proto ∧ out 2 = code ∧ out 3 = ident ∧ out 4 = 0 ∧ out 5 = 4 := by
  have hb (i : ℕ) (b : Byte) (hi : i < 6) (hh : (header x code ident)[i]? = some b) : out i = b := by
    have hs := congrArg (fun l => l[i]?) h
    simp only [getElem?_slice, if_pos hi, Nat.zero_add] at hs
    exact Option.some_inj.mp (hs.trans hh)
  refine ⟨?_, hb 2 _ (by decide) rfl, hb 3 _ (by decide) rfl, hb 4 _ (by decide) rfl, hb 5 _ (by decide) rfl⟩
  rw [get16, hb 0 _ (by decide) rfl, hb (0 + 1) _ (by decide) rfl]
  cases x <;> decide

/-- A Configure-Reject begins with its header, and has options. -/
theorem Rejecting.header {m out : ℕ → Byte} {ps : List ℕ} {up : ℕ} (h : Rejecting x m ps out up) :
    slice out 0 6 = Ppp.header x codeConfRej (m 3) ∧ 8 ≤ up := by
  obtain ⟨hne, hup, hout⟩ := h
  have h8 : 8 ≤ up := by
    obtain ⟨bp, bps, hbp⟩ := List.exists_cons_of_ne_nil hne
    have h2 : 2 ≤ optionLength m bp := le_max_left _ _
    rw [hbp, List.flatMap_cons, List.length_append, length_fixedOption] at hup
    omega
  refine ⟨?_, h8⟩
  have htake := congrArg (List.take 6) hout
  rw [take_slice, Nat.min_eq_left (by omega), List.take_append_of_le_length (by rw [length_header])] at htake
  exact htake.trans (List.take_of_length_le (by rw [length_header]))

/-- A Configure-Nak or a Configure-Reject that was just built. -/
theorem sound_built {code : Byte} (hc : code = codeConfNak ∨ code = codeConfRej) (h2 : t.outbuffer 2 = code)
    (h4 : t.outbuffer 4 = 0) (h5 : t.outbuffer 5 = 4) (hup : 6 < t.up) (h6 : code = codeConfNak → 6 ∣ t.up) :
    Sound s t := by
  refine ⟨fun _ => ?_, fun y _ _ => ⟨?_, fun _ => ⟨h5, .inl h4, hup, fun h => h6 (h2.symm.trans h)⟩⟩⟩
  · rw [h2]
    rcases hc with rfl | rfl <;> decide
  · rw [h2]
    rcases hc with rfl | rfl <;> decide

/-- Looking at a request leaves the buffer sound. -/
theorem sound_validateRequest (x : Xcp) (s : PppState) : Sound s (validateRequest x s) := by
  have hv := validateRequest_cases x s
  generalize validateRequest x s = t at hv
  cases hv with
  | good hu => exact ⟨id, fun _ => id⟩
  | stale hu => exact ⟨id, fun _ => id⟩
  | nak st out k hst hu h =>
    obtain ⟨-, h2, -, h4, h5⟩ := slice_eq_header h
    have hup : 6 < 6 + 6 * (k + 1) := by omega
    exact sound_built (.inl rfl) h2 h4 h5 hup fun _ => ⟨k + 2, by change 6 + 6 * (k + 1) = _; omega⟩
  | cut out up hb h =>
    obtain ⟨hh, h8⟩ := h.header
    obtain ⟨-, h2, -, h4, h5⟩ := slice_eq_header hh
    have hup : 6 < up := by omega
    exact sound_built (.inr rfl) h2 h4 h5 hup nofun
  | reject out up hb h =>
    obtain ⟨hh, h8⟩ := h.header
    obtain ⟨-, h2, -, h4, h5⟩ := slice_eq_header hh
    have hlow {i : ℕ} (hi : i < 6) : putLength out 6 (up - 4) i = out i := put_of_lt hi
    have hup : 6 < up := by omega
    exact sound_built (.inr rfl) ((hlow (by decide)).trans h2) ((hlow (by decide)).trans h4)
      ((hlow (by decide)).trans h5) hup nofun

theorem xcp_validateRequest (x y : Xcp) (s : PppState) : (validateRequest x s).xcp y = s.xcp y := by
  have hv := validateRequest_cases x s
  generalize validateRequest x s = t at hv
  cases hv <;> cases y <;> rfl

/-- Taking over the options of an answer concerns nothing else. -/
theorem inv_processRcx (code : Byte) (hs : Inv s) : Inv (processRcx x code s) := by
  have hmod (i : ℕ) (f : OptionState → OptionState) (s : PppState) (hs : Inv s) :
      Inv (s.modify x fun p => { p with opts := Function.update p.opts i (f (p.opts i)) }) := by
    refine hs.of_sound (sound_modify x _ s) fun y => ?_
    cases x <;> cases y <;> exact ⟨rfl, rfl⟩
  have hone (s : PppState) (bp : ℕ) (hs : Inv s) : Inv (processOption x code s bp) := by
    unfold processOption
    cases findType x (s.inbuffer bp) with
    | none => exact hs
    | some p =>
      obtain ⟨t, i⟩ := p
      simp only
      split_ifs
      · exact hmod i (fun o => { o with unusable := true }) s hs
      · exact hmod i (fun o => { o with myValue := t.defaultValue }) s hs
      · exact hmod i (fun o => { o with myValue := optionValue s.inbuffer bp }) s hs
      · exact hmod i (fun o => { o with myValue := get32 s.inbuffer (bp + 2) }) s hs
  unfold processRcx
  generalize s.options.1 = ps
  induction ps generalizing s with
  | nil => exact hs
  | cons bp ps ih => exact ih (hone s bp hs)

/-- What a packet does before its event. -/
theorem inv_receive (x : Xcp) (code id : Byte) (hs : Inv s) : ∀ p ∈ receive x code id s, Inv p.2.2 := by
  have hnone : ∀ p ∈ (none : Option (Xcp × PppEvent × PppState)), Inv p.2.2 :=
    fun _ h => absurd h (Option.not_mem_none _)
  have hsome (y : Xcp) (e : PppEvent) (t : PppState) (ht : Inv t) : ∀ p ∈ some (y, e, t), Inv p.2.2 := by
    rintro _ ⟨⟩
    exact ht
  have hval : Inv (validateRequest x s) :=
    hs.of_sound (sound_validateRequest x s) fun y => by rw [xcp_validateRequest]; exact ⟨rfl, rfl⟩
  have hrcx : Inv (processRcx x code s) := inv_processRcx code hs
  have hbp (n : ℕ) : Inv { s with bp := n } :=
    hs.of_sound (Sound.refl s) fun y => by cases y <;> exact ⟨rfl, rfl⟩
  unfold receive
  refine forall_mem_ite (hsome _ _ _ hval) ?_
  refine forall_mem_ite (forall_mem_ite (hsome _ _ _ hrcx) hnone) ?_
  refine forall_mem_ite (forall_mem_ite (hsome _ _ _ hrcx) hnone) ?_
  refine forall_mem_ite (hsome _ _ _ hs) ?_
  refine forall_mem_ite (forall_mem_ite (hsome _ _ _ hs) hnone) ?_
  refine forall_mem_ite (hsome _ _ _ (hbp _)) ?_
  refine forall_mem_ite (forall_mem_ite (hsome _ _ _ hs) (hsome _ _ _ hs)) ?_
  refine forall_mem_ite (hsome _ _ _ hs) ?_
  refine forall_mem_ite (forall_mem_ite (hsome _ _ _ hs) hnone) ?_
  exact hsome _ _ _ (hbp _)

theorem inv_stopRejected (code : Byte) (proto : Word) (hs : Inv s) : Inv (stopRejected code proto s) := by
  unfold stopRejected
  split_ifs
  · refine ⟨hs.code, hs.ipcp, hs.lcp, fun y hy => ?_⟩
    cases y with
    | lcp => exact hs.restart .lcp hy
    | ipcp =>
      have hno : XcpState.stInitial = .stOpened := hy
      cases hno
  · exact hs

theorem inv_negotiate (code id : Byte) (hs : Inv s) (ht : t ∈ negotiate clock x code id s) : Inv t := by
  unfold negotiate at ht
  have hr := inv_receive x code id hs
  generalize receive x code id s = r at ht hr
  cases r with
  | none => exact Option.some_inj.mp ht ▸ hs
  | some p =>
    obtain ⟨u, hu, rfl⟩ := Option.map_eq_some_iff.mp ht
    exact inv_stopRejected _ _ (inv_sendEvent depth (hr p rfl) hu)

/-- The packet at hand is not in the output buffer. -/
theorem Inv.packet (hs : Inv s) (m : ℕ → Byte) (bp : ℕ) (mlen : ℤ) :
    Inv { s with inbuffer := m, bp := bp, mlen := mlen } :=
  hs.of_sound (Sound.refl s) fun y => by cases y <;> exact ⟨rfl, rfl⟩

theorem inv_stdNegotiation (hs : Inv s) (ht : t ∈ stdNegotiation clock x s) : Inv t := by
  unfold stdNegotiation at ht
  by_cases hm : s.mlen < 4
  · rw [if_pos hm] at ht
    exact Option.some_inj.mp ht ▸ hs
  · rw [if_neg hm] at ht
    by_cases hl : s.mlen < (get16 s.inbuffer (s.bp + 2)).toNat
    · simp only [if_pos hl] at ht
      exact Option.some_inj.mp ht ▸ hs.packet s.inbuffer _ _
    · simp only [if_neg hl] at ht
      exact inv_negotiate _ _ (hs.packet s.inbuffer _ _) ht

/-- The code of a Protocol-Reject is the high byte of its length. -/
theorem protocolReject_code (p : Packet) (s : PppState) : ((protocolReject p s).outbuffer 2).toNat ≤ 5 := by
  have hlen : min (p.len - 2).toNat (pppMru - 6) ≤ 1494 := Nat.min_le_right _ _
  have hcode : (protocolReject p s).outbuffer 2 =
      ((BitVec.ofNat 16 (min (p.len - 2).toNat (pppMru - 6) + 6 - 4)) >>> 8).setWidth 8 := rfl
  rw [hcode, BitVec.toNat_setWidth, BitVec.toNat_ushiftRight, BitVec.toNat_ofNat, Nat.shiftRight_eq_div_pow]
  generalize min (p.len - 2).toNat (pppMru - 6) = len at hlen
  omega

/-- Its protocol is LCP. -/
theorem protocolReject_proto (p : Packet) (s : PppState) : get16 (protocolReject p s).outbuffer 0 = Xcp.lcp.proto := by
  have h₀ : (protocolReject p s).outbuffer 0 = (Xcp.lcp.proto >>> 8).setWidth 8 := rfl
  have h₁ : (protocolReject p s).outbuffer 1 = Xcp.lcp.proto.setWidth 8 := rfl
  rw [get16, h₀, h₁]
  decide

/-- A Protocol-Reject goes out over an LCP that is opened. -/
theorem inv_protocolReject (p : Packet) (hs : Inv s) (hst : s.lcp.state = .stOpened) :
    Inv (protocolReject p s) := by
  refine ⟨(protocolReject_code p s).trans (by decide), fun h => ?_, fun h => ?_, fun y hy => ?_⟩
  · rw [protocolReject_proto] at h
    exact absurd h (by decide)
  · have hno : Negotiating s.lcp.state := h
    rw [hst] at hno
    exact absurd hno (by decide)
  · cases y with
    | lcp => exact hs.restart .lcp hy
    | ipcp => exact hs.restart .ipcp hy

theorem inv_pppInput (p : Packet) (hs : Inv s) (ht : t ∈ pppInput clock p s) : Inv t := by
  have hp : Inv { s with inbuffer := fun i => p.mem (i + 2) } := hs.packet _ s.bp s.mlen
  have hd : Inv { s with inbuffer := fun i => p.mem (i + 2), bp := 0, mlen := (p.len - 2).toNat } := hs.packet _ _ _
  unfold pppInput at ht
  simp only at ht
  split_ifs at ht with h₁ h₂ h₃ h₄
  · exact Option.some_inj.mp ht ▸ hp
  · exact inv_stdNegotiation hd ht
  · exact inv_stdNegotiation hd ht
  · exact Option.some_inj.mp ht ▸ inv_protocolReject p hp h₄
  · exact Option.some_inj.mp ht ▸ hp

theorem inv_checkTimeout (now : ℕ) (x : Xcp) (hs : Inv s) (ht : t ∈ checkTimeout clock now x s) : Inv t := by
  unfold checkTimeout at ht
  split_ifs at ht
  all_goals first
    | exact Option.some_inj.mp ht ▸ hs
    | refine inv_sendEvent depth (hs.of_sound (sound_modify x _ s) fun y => ?_) ht
      cases x <;> cases y <;> exact ⟨rfl, rfl⟩

theorem inv_checkTimeouts (hs : Inv s) (ht : t ∈ checkTimeouts clock s) : Inv t := by
  have hp : Inv (if s.timeoutPeriod < maxTimeout then { s with timeoutPeriod := 2 * s.timeoutPeriod } else s) := by
    split_ifs
    · exact hs.of_sound (Sound.refl s) fun y => by cases y <;> exact ⟨rfl, rfl⟩
    · exact hs
  unfold checkTimeouts at ht
  generalize (if s.timeoutPeriod < maxTimeout then _ else s : PppState) = s' at hp ht
  have hr : Inv { s' with readings := s'.readings + 1 } :=
    hp.of_sound (Sound.refl s') fun y => by cases y <;> exact ⟨rfl, rfl⟩
  obtain ⟨u, hu, ht⟩ := Option.mem_bind_iff.mp ht
  exact inv_checkTimeout _ .ipcp (inv_checkTimeout _ .lcp hr hu) ht

/-- **A step keeps the buffers**. -/
theorem inv_handle (a : Op) (hs : Inv s) (ht : t ∈ handle clock s a) : Inv t := by
  have hp : Inv { s with sent := [] } := hs.of_sound (Sound.refl s) fun y => by cases y <;> exact ⟨rfl, rfl⟩
  cases a with
  | input p => exact inv_pppInput p hp ht
  | checkTimeouts => exact inv_checkTimeouts hp ht

/-- Opening IPCP first of all opens LCP, which sends a request. -/
theorem open_code (n : ℕ) (hi : s.ipcp.state = .stInitial) (hl : s.lcp.state = .stInitial) (hp : s.phase = .phDead)
    (ht : t ∈ sendEvent clock (n + 3) .ipcp .evOpen s) : t.outbuffer 2 = codeConfReq := by
  have hopen (x : Xcp) (h : (s.xcp x).state = .stInitial) :
      pppDispatch (s.xcp x).state .evOpen = (some .stStarting, [.acTls]) := by rw [h]; rfl
  rw [sendEvent, hopen .ipcp hi, foldlM_singleton] at ht
  change t ∈ sendEvent clock (n + 2) .lcp .evOpen (enterState .ipcp (some .stStarting) s) at ht
  have hl' : ((enterState .ipcp (some .stStarting) s).xcp .lcp).state = .stInitial := hl
  rw [sendEvent, hl', show pppDispatch .stInitial .evOpen = (some .stStarting, [.acTls]) from rfl,
    foldlM_singleton] at ht
  -- the phase was Dead, so LCP gets up
  obtain ⟨u, hu, hut⟩ := Option.mem_bind_iff.mp (show t ∈ changePhase (sendEvent clock (n + 1)) .phEstablish _ from ht)
  obtain ⟨v, hv, rfl⟩ := Option.map_eq_some_iff.mp hu
  obtain rfl := Option.some_inj.mp hut
  have hv' : v ∈ sendEvent clock (n + 1) .lcp .evUp
      (enterState .lcp (some .stStarting) (enterState .ipcp (some .stStarting) s)) := (if_pos hp).symm.trans hv
  have hcode : v.outbuffer 2 = codeConfReq := irc_scr_code (x := .lcp) hv'
  exact hcode

/-- At the start LCP has sent a request, whatever was there before. -/
theorem inv_pppStart (magic : Dword) (r₁ r₂ : ℕ) (s : PppState) (ht : t ∈ pppStart clock magic r₁ r₂ s) : Inv t := by
  have hc : (pppStart clock magic r₁ r₂ s).map control = some ⟨.phEstablish, .stReqSent, .stStarting, true⟩ := by
    unfold pppStart
    rw [control_sendEvent]
    rfl
  rw [ht] at hc
  have hst : control t = ⟨.phEstablish, .stReqSent, .stStarting, true⟩ := Option.some_inj.mp hc
  have hcode : t.outbuffer 2 = codeConfReq := open_code 5 rfl rfl rfl ht
  refine ⟨by rw [hcode]; decide, written_plain (.inl hcode), fun _ => written_plain (.inl hcode), fun y hy => ?_⟩
  have hl : t.lcp.state = .stReqSent := congrArg Control.lcp hst
  have hi : t.ipcp.state = .stStarting := congrArg Control.ipcp hst
  cases y with
  | lcp => exact absurd (hl.symm.trans hy) nofun
  | ipcp => exact absurd (hi.symm.trans hy) nofun

end Watt32.Ppp
