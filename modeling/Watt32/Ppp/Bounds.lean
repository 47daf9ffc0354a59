import Watt32.Ppp.Footprint

/-!
# The bounds of PPP input

* `ReceiveFits`, `NegotiationFits`, `InputFits`, `HandlerFits`: the frames that are read inside, function by function.
* `gives_receiveR`, `gives_stdNegotiationR`, `gives_pppInputR`: what each function reads and writes.
* **`input_bounded_iff`**: a session frame is read inside, and its reply fits, exactly if `HandlerFits`.
-/

namespace Watt32.Ppp

open Mem Reads

/-! ## The conditions -/

/-- A packet is read inside, by its code. -/
structure ReceiveFits (x : Xcp) (code id : Byte) (R : ℕ) (s : PppState) : Prop where
  request : code = codeConfReq → RequestFits x R s
  rcx : code = codeConfAck ∨ code = codeConfNak ∨ code = codeConfRej → id = (s.xcp x).ident → RcxFits x code R s
  codeRej : code = codeCodeRej → s.bp + inOfs < R
  protoRej : code = codeProtoRej → s.bp + 1 + inOfs < R

/-- A packet is read inside by `std_negotiation`. -/
structure NegotiationFits (x : Xcp) (R : ℕ) (s : PppState) : Prop where
  header : 4 ≤ s.mlen → s.bp + 3 + inOfs < R
  body : 4 ≤ s.mlen → ((get16 s.inbuffer (s.bp + 2)).toNat : ℤ) ≤ s.mlen →
    ReceiveFits x (s.inbuffer s.bp) (s.inbuffer (s.bp + 1)) R
      { s with bp := s.bp + 4, mlen := ((get16 s.inbuffer (s.bp + 2)).toNat : ℤ) - 4 }

/-- The state in which a packet is delivered. -/
def delivered (frame : ℕ → Byte) (len : Word) (s : PppState) : PppState :=
  { s with inbuffer := frameData frame, bp := 0, mlen := (len - 2).toNat }

/-- A packet is read inside by `ppp_input`. -/
structure InputFits (frame : ℕ → Byte) (len : Word) (R : ℕ) (s : PppState) : Prop where
  proto : packetOfs + 1 < R
  negotiation (x : Xcp) : get16 frame packetOfs = x.proto → NegotiationFits x R (delivered frame len s)
  reject : get16 frame packetOfs ≠ pppIp → (∀ x : Xcp, get16 frame packetOfs ≠ x.proto) → s.lcp.state = .stOpened →
    packetOfs + min (len - 2).toNat (pppMru - 6) ≤ R

/-- The header of a frame is that of a packet of the session. -/
structure ForSession (cfg : Pppoe.Config) (c : Pppoe.Client) (frame : ℕ → Byte) : Prop where
  session : get16 frame 16 = c.session
  notBroadcast : eval frame (macR 0) ≠ Pppoe.ethBrdcast
  dst : eval frame (macR 0) = cfg.ethAddr
  src : eval frame (macR 6) = c.acMacAddr

/-- A session frame of `R` bytes is read inside. -/
structure HandlerFits (cfg : Pppoe.Config) (c : Pppoe.Client) (frame : ℕ → Byte) (R : ℕ) (s : PppState) : Prop where
  head : 14 < R
  code : frame 14 = verType → c.state = .session → 15 < R
  session : frame 14 = verType → c.state = .session → frame 15 = pppoeCodeSess → 17 < R
  input : frame 14 = verType → c.state = .session → frame 15 = pppoeCodeSess → ForSession cfg c frame →
    InputFits frame (get16 frame 18) R s

variable {x : Xcp} {m : ℕ → Byte} {R i : ℕ} {s : PppState} {code id : Byte} {o : Outcome}

/-! ## Packets -/

theorem within_macR : Within (· < R) m (macR i) ↔ i + 5 < R := by
  unfold macR
  rw [within_bind, within_bind, within_get32R, within_get16R, and_iff_left within_pure]
  omega

theorem outcome_of_ne (h : code ≠ codeProtoRej) : outcome x code id s =
    (receive x code id s).elim (.done s) fun r => .event r.1 r.2.1 r.2.2 false := by
  unfold outcome
  cases receive x code id s with
  | none => rfl
  | some r => simp [h]

theorem receiveFits_request : ReceiveFits x codeConfReq id R s ↔ RequestFits x R s :=
  ⟨fun h => h.request rfl, fun h => ⟨fun _ => h, fun hc => absurd hc (by decide), fun hc => absurd hc (by decide),
    fun hc => absurd hc (by decide)⟩⟩

theorem receiveFits_rcx (hcode : code = codeConfAck ∨ code = codeConfNak ∨ code = codeConfRej) :
    ReceiveFits x code id R s ↔ (id = (s.xcp x).ident → RcxFits x code R s) := by
  refine ⟨fun h => h.rcx hcode, fun h => ⟨fun hc => ?_, fun _ => h, fun hc => ?_, fun hc => ?_⟩⟩
  · subst hc
    exact absurd hcode (by decide)
  · subst hc
    exact absurd hcode (by decide)
  · subst hc
    exact absurd hcode (by decide)

/-- A Configure-Ack, -Nak or -Reject. -/
theorem gives_rcx {e : PppEvent} (hin : s.inbuffer = frameData m)
    (hcode : code = codeConfAck ∨ code = codeConfNak ∨ code = codeConfRej)
    (hR : receiveR x code id s = if id = (s.xcp x).ident then
      (processRcxR x code s).andThen fun s => pure (some (.event x e s false)) else pure (some (.done s)))
    (hr : receive x code id s = if id = (s.xcp x).ident then some (x, e, processRcx x code s) else none) :
    Gives (· < R) m (receiveR x code id s) o ↔ ReceiveFits x code id R s ∧ outcome x code id s = o := by
  have hne : code ≠ codeProtoRej := by
    rintro rfl
    exact absurd hcode (by decide)
  rw [outcome_of_ne hne, receiveFits_rcx hcode, hR, hr]
  by_cases hid : id = (s.xcp x).ident
  · rw [if_pos hid, if_pos hid, forall_prop_of_true hid, gives_andThen]
    simp only [gives_processRcxR hin, gives_pure]
    constructor
    · rintro ⟨u, ⟨hfits, rfl⟩, ho⟩
      exact ⟨hfits, ho⟩
    · rintro ⟨hfits, ho⟩
      exact ⟨_, ⟨hfits, rfl⟩, ho⟩
  · rw [if_neg hid, if_neg hid, gives_pure, and_iff_right fun h => absurd h hid]
    rfl

/-- A code that nothing more is read for. -/
theorem gives_plain (hreq : code ≠ codeConfReq) (hrcx : ¬ (code = codeConfAck ∨ code = codeConfNak ∨ code = codeConfRej))
    (hcr : code ≠ codeCodeRej) (hpr : code ≠ codeProtoRej)
    (hR : receiveR x code id s = pure (some ((receive x code id s).elim (.done s) fun r => .event r.1 r.2.1 r.2.2 false))) :
    Gives (· < R) m (receiveR x code id s) o ↔ ReceiveFits x code id R s ∧ outcome x code id s = o := by
  rw [hR, gives_pure, outcome_of_ne hpr, and_iff_right]
  exact ⟨fun h => absurd h hreq, fun h => absurd h hrcx, fun h => absurd h hcr, fun h => absurd h hpr⟩

/-- **The `switch` of `std_negotiation`.** -/
theorem gives_receiveR (hin : s.inbuffer = frameData m) (hid : 3 + inOfs < R) :
    Gives (· < R) m (receiveR x code id s) o ↔ ReceiveFits x code id R s ∧ outcome x code id s = o := by
  by_cases hreq : code = codeConfReq
  · subst hreq
    rw [outcome_of_ne (by decide), receiveFits_request, receiveR, receive, if_pos rfl, if_pos rfl, gives_andThen]
    simp only [gives_validateRequestR hin hid, gives_pure]
    constructor
    · rintro ⟨u, ⟨hfits, rfl⟩, ho⟩
      exact ⟨hfits, ho⟩
    · rintro ⟨hfits, ho⟩
      exact ⟨_, ⟨hfits, rfl⟩, ho⟩
  by_cases hack : code = codeConfAck
  · refine gives_rcx hin (.inl hack) (e := .evRCA) ?_ ?_
    · rw [receiveR, if_neg hreq, if_pos hack]
    · rw [receive, if_neg hreq, if_pos hack]
  by_cases hnak : code = codeConfNak ∨ code = codeConfRej
  · refine gives_rcx hin (.inr hnak) (e := .evRCN) ?_ ?_
    · rw [receiveR, if_neg hreq, if_neg hack, if_pos hnak]
    · rw [receive, if_neg hreq, if_neg hack, if_pos hnak]
  by_cases hcr : code = codeCodeRej
  · subst hcr
    have hfits : ReceiveFits x codeCodeRej id R s ↔ s.bp + inOfs < R :=
      ⟨fun h => h.codeRej rfl, fun h => ⟨fun hc => absurd hc (by decide), fun hc => absurd hc (by decide), fun _ => h,
        fun hc => absurd hc (by decide)⟩⟩
    have hR : receiveR x codeCodeRej id s = inCell s.bp >>= fun rejected =>
        pure (some (.event x (if rejected ≠ 0 ∧ rejected < codeEchoReq then .evRXJm else .evRXJp)
          { s with bp := s.bp + 1 } false)) := rfl
    rw [outcome_of_ne (by decide), hfits, hR, gives_inCell, gives_pure, ← hin]
    rfl
  by_cases hpr : code = codeProtoRej
  · subst hpr
    have hfits : ReceiveFits x codeProtoRej id R s ↔ s.bp + 1 + inOfs < R :=
      ⟨fun h => h.protoRej rfl, fun h => ⟨fun hc => absurd hc (by decide), fun hc => absurd hc (by decide),
        fun hc => absurd hc (by decide), fun _ => h⟩⟩
    have hR : receiveR x codeProtoRej id s = get16R (s.bp + inOfs) >>= fun proto =>
        if proto = Xcp.lcp.proto then pure (some (.event .lcp .evRXJm s false))
        else pure (some (.event x .evRXJp s (proto = Xcp.ipcp.proto))) := rfl
    have hproto : get16 m (s.bp + inOfs) = get16 s.inbuffer s.bp := by
      rw [hin]
      exact congrArg (m (s.bp + inOfs) ++ m ·) (by omega)
    rw [hfits, hR, gives_bind, within_get16R, eval_get16R, hproto]
    refine and_congr (by omega) ?_
    unfold outcome
    have hr : receive x codeProtoRej id s =
        if get16 s.inbuffer s.bp = Xcp.lcp.proto then some (.lcp, .evRXJm, s) else some (x, .evRXJp, s) := rfl
    rw [hr]
    by_cases hlcp : get16 s.inbuffer s.bp = Xcp.lcp.proto
    · rw [if_pos hlcp, if_pos hlcp, gives_pure, hlcp]
      rfl
    · rw [if_neg hlcp, if_neg hlcp, gives_pure]
      simp
  refine gives_plain hreq (not_or.mpr ⟨hack, hnak⟩) hcr hpr ?_
  rw [receiveR, receive]
  simp only [if_neg hreq, if_neg hack, if_neg hnak, if_neg hcr, if_neg hpr]
  split_ifs <;> rfl

/-- **`std_negotiation`.** -/
theorem gives_stdNegotiationR (hin : s.inbuffer = frameData m) (hbp : s.bp = 0) :
    Gives (· < R) m (stdNegotiationR x s) o ↔ NegotiationFits x R s ∧ stdOutcome x s = o := by
  have hlength : get16 m (s.bp + 2 + inOfs) = get16 s.inbuffer (s.bp + 2) := by
    rw [hin]
    exact congrArg (m (s.bp + 2 + inOfs) ++ m ·) (by omega)
  unfold stdNegotiationR stdOutcome
  simp only
  by_cases hshort : s.mlen < 4
  · rw [if_pos hshort, if_pos hshort, gives_pure, and_iff_right]
    exact ⟨fun h => absurd h (not_le.mpr hshort), fun h => absurd h (not_le.mpr hshort)⟩
  rw [if_neg hshort, if_neg hshort, gives_inCell, gives_inCell, gives_bind, within_get16R, eval_get16R, hlength, ← hin]
  have hheader : 4 ≤ s.mlen := not_lt.mp hshort
  by_cases hlong : s.mlen < (get16 s.inbuffer (s.bp + 2)).toNat
  · rw [if_pos hlong, if_pos hlong, gives_pure, ← and_assoc, ← and_assoc]
    refine and_congr_left fun _ => ⟨fun h => ⟨fun _ => by omega, fun _ h => absurd h (not_le.mpr hlong)⟩, fun h => ?_⟩
    have := h.header hheader
    omega
  rw [if_neg hlong, if_neg hlong]
  constructor
  · rintro ⟨-, -, hread, hrest⟩
    have hid : 3 + inOfs < R := by omega
    obtain ⟨hfits, ho⟩ := (gives_receiveR (s := { s with bp := s.bp + 4, mlen := _ }) hin hid).mp hrest
    exact ⟨⟨fun _ => by omega, fun _ _ => hfits⟩, ho⟩
  · rintro ⟨⟨hread, hfits⟩, ho⟩
    have := hread hheader
    have hid : 3 + inOfs < R := by omega
    exact ⟨by omega, by omega, by omega, (gives_receiveR (s := { s with bp := s.bp + 4, mlen := _ }) hin hid).mpr
      ⟨hfits hheader (not_lt.mp hlong), ho⟩⟩

/-- **The Protocol-Reject** reads as much of the packet as fits into `outbuffer`. -/
theorem gives_protocolRejectR {len : Word} (hproto : packetOfs + 1 < R) :
    Gives (· < R) m (protocolRejectR (len - 2) s) o ↔ packetOfs + min (len - 2).toNat (pppMru - 6) ≤ R ∧
      Outcome.done (protocolReject ⟨fun i => m (i + packetOfs), len⟩ s) = o := by
  have hroom : min (len - 2).toNat (pppMru - 6) + 6 ≤ pppMru := by
    have : pppMru = 1500 := rfl
    omega
  have hblit (out : ℕ → Byte) (n : ℕ) : blit out 6 (fun i => m (i + packetOfs)) 0 n = put out 6 (slice m packetOfs n) := by
    rw [put_slice]
    funext k
    unfold blit
    exact if_congr Iff.rfl (congrArg m (by omega)) rfl
  rw [protocolRejectR, gives_cells, within_cells_lt, protocolReject]
  simp only [if_pos hroom, gives_pure, hblit]
  refine and_congr_left fun _ => ?_
  omega

/-- **`ppp_input`.** -/
theorem gives_pppInputR {len : Word} : Gives (· < R) m (pppInputR m len s) o ↔
    InputFits m len R s ∧ inputOutcome ⟨fun i => m (i + packetOfs), len⟩ s = o := by
  have hproto : Packet.proto ⟨fun i => m (i + packetOfs), len⟩ = get16 m packetOfs := by
    show m (0 + packetOfs) ++ m (1 + packetOfs) = m packetOfs ++ m (packetOfs + 1)
    rw [Nat.zero_add, Nat.add_comm 1]
  have hdeliver (x : Xcp) : Gives (· < R) m (stdNegotiationR x (delivered m len s)) o ↔
      NegotiationFits x R (delivered m len s) ∧ stdOutcome x (delivered m len s) = o :=
    gives_stdNegotiationR rfl rfl
  have hother (x : Xcp) (p : Word) (hp : get16 m packetOfs = p) (hx : p ≠ x.proto) :
      get16 m packetOfs = x.proto → NegotiationFits x R (delivered m len s) := fun h => absurd (hp.symm.trans h) hx
  rw [pppInputR, gives_bind, within_get16R, eval_get16R, inputOutcome, hproto]
  simp only
  by_cases hip : get16 m packetOfs = pppIp
  · rw [if_pos hip, if_pos hip, gives_pure]
    refine and_congr_left fun _ => ⟨fun h => ⟨h, fun x => ?_, fun hne => absurd hip hne⟩, fun h => h.proto⟩
    cases x with
    | lcp => exact hother .lcp _ hip (by decide)
    | ipcp => exact hother .ipcp _ hip (by decide)
  rw [if_neg hip, if_neg hip]
  by_cases hlcp : get16 m packetOfs = Xcp.lcp.proto
  · rw [if_pos hlcp, if_pos hlcp]
    refine (and_congr_right fun _ => hdeliver .lcp).trans ⟨?_, ?_⟩
    · rintro ⟨hread, hfits, ho⟩
      refine ⟨⟨hread, fun x => ?_, fun _ hne => absurd hlcp (hne .lcp)⟩, ho⟩
      cases x with
      | lcp => exact fun _ => hfits
      | ipcp => exact hother .ipcp _ hlcp (by decide)
    · rintro ⟨hfits, ho⟩
      exact ⟨hfits.proto, hfits.negotiation .lcp hlcp, ho⟩
  rw [if_neg hlcp, if_neg hlcp]
  by_cases hipcp : get16 m packetOfs = Xcp.ipcp.proto
  · rw [if_pos hipcp, if_pos hipcp]
    refine (and_congr_right fun _ => hdeliver .ipcp).trans ⟨?_, ?_⟩
    · rintro ⟨hread, hfits, ho⟩
      refine ⟨⟨hread, fun x => ?_, fun _ hne => absurd hipcp (hne .ipcp)⟩, ho⟩
      cases x with
      | lcp => exact fun h => absurd h hlcp
      | ipcp => exact fun _ => hfits
    · rintro ⟨hfits, ho⟩
      exact ⟨hfits.proto, hfits.negotiation .ipcp hipcp, ho⟩
  rw [if_neg hipcp, if_neg hipcp]
  have hnone (x : Xcp) : get16 m packetOfs ≠ x.proto := by
    cases x with
    | lcp => exact hlcp
    | ipcp => exact hipcp
  by_cases hopen : s.lcp.state = .stOpened
  · rw [if_pos hopen, if_pos hopen]
    constructor
    · rintro ⟨hread, hreject⟩
      obtain ⟨hin, ho⟩ := (gives_protocolRejectR hread).mp hreject
      exact ⟨⟨hread, fun x h => absurd h (hnone x), fun _ _ _ => hin⟩, ho⟩
    · rintro ⟨hfits, ho⟩
      exact ⟨hfits.proto, (gives_protocolRejectR hfits.proto).mpr ⟨hfits.reject hip hnone hopen, ho⟩⟩
  · rw [if_neg hopen, if_neg hopen, gives_pure]
    exact and_congr_left fun _ => ⟨fun h => ⟨h, fun x h => absurd h (hnone x), fun _ _ h => absurd h hopen⟩,
      fun h => h.proto⟩

/-! ## The law -/

/-- The handling of a frame of `R` bytes comes to the event that is sent, without a write behind `outbuffer`, and reads
only bytes of the frame. -/
def Bounded (cfg : Pppoe.Config) (c : Pppoe.Client) (frame : ℕ → Byte) (R : ℕ) (s : PppState) : Prop :=
  ∃ o, Gives (· < R) frame (pppoeHandlerR cfg c frame s) o

variable {cfg : Pppoe.Config} {c : Pppoe.Client} {frame : ℕ → Byte}

/-- A frame that is not for the session, by the test of the handler. -/
theorem forSession_iff : ForSession cfg c frame ↔
    ¬ (get16 frame 16 ≠ c.session ∨ eval frame (macR 0) = Pppoe.ethBrdcast ∨ eval frame (macR 0) ≠ cfg.ethAddr) ∧
      ¬ eval frame (macR 6) ≠ c.acMacAddr := by
  rw [not_or, not_or, not_ne_iff, not_ne_iff, not_ne_iff]
  exact ⟨fun h => ⟨⟨h.session, h.notBroadcast, h.dst⟩, h.src⟩, fun h => ⟨h.1.1, h.1.2.1, h.1.2.2, h.2⟩⟩

/-- What is read inside is read from a frame that is long enough. -/
theorem handlerFits_of_bounded (hsess : get16 frame 12 = pppoeSessType) :
    Bounded cfg c frame R s → HandlerFits cfg c frame R s := by
  unfold Bounded pppoeHandlerR
  simp only [gives_cell, exists_and_left]
  rintro ⟨hhead, o, h⟩
  refine ⟨hhead, fun hver hstate => ?_, fun hver hstate hcode => ?_, fun hver hstate hcode hfor => ?_⟩
  all_goals
    rw [if_neg (not_not.mpr hver)] at h
    rw [gives_get16R, gives_bind, if_pos ⟨hsess, hstate⟩, gives_cell] at h
  · exact h.2.2.1
  · rw [if_neg (not_not.mpr hcode), gives_get16R] at h
    exact within_get16R.mp h.2.2.2.1
  · obtain ⟨htest, hsrc⟩ := forSession_iff.mp hfor
    rw [if_neg (not_not.mpr hcode), gives_get16R, if_neg htest, gives_bind, if_neg hsrc, gives_get16R] at h
    exact (gives_pppInputR.mp h.2.2.2.2.2.2).1

/-- A frame that is long enough is read inside. -/
theorem bounded_of_handlerFits (hsess : get16 frame 12 = pppoeSessType) :
    HandlerFits cfg c frame R s → Bounded cfg c frame R s := by
  have hignore : ∃ o, Gives (· < R) frame (pure (some (Outcome.done s))) o := ⟨.done s, gives_pure.mpr rfl⟩
  unfold Bounded pppoeHandlerR
  simp only [gives_cell, exists_and_left]
  intro h
  refine ⟨h.head, ?_⟩
  by_cases hver : frame 14 = verType
  swap
  · simp only [if_pos hver]
    exact hignore
  have hhead := h.head
  have htype : Within (· < R) frame (get16R 12) := within_get16R.mpr (by omega)
  have hdst : Within (· < R) frame (macR 0) := within_macR.mpr (by omega)
  have hsrc : Within (· < R) frame (macR 6) := within_macR.mpr (by omega)
  simp only [if_neg (not_not.mpr hver), gives_get16R, htype, true_and]
  simp only [gives_bind, hdst, true_and]
  by_cases hstate : c.state = .session
  swap
  · simp only [if_neg fun h : get16 frame 12 = pppoeSessType ∧ c.state = .session => hstate h.2]
    exact hignore
  have hlen := h.code hver hstate
  simp only [if_pos (And.intro hsess hstate), gives_cell, hlen, true_and]
  by_cases hcode : frame 15 = pppoeCodeSess
  swap
  · simp only [if_pos hcode]
    exact hignore
  have hsession : Within (· < R) frame (get16R 16) := within_get16R.mpr (h.session hver hstate hcode)
  simp only [if_neg (not_not.mpr hcode), gives_get16R, hsession, true_and]
  by_cases hfor : ForSession cfg c frame
  · obtain ⟨htest, hac⟩ := forSession_iff.mp hfor
    have hfits := h.input hver hstate hcode hfor
    have hfield : Within (· < R) frame (get16R 18) := by
      have : 21 < R := hfits.proto
      exact within_get16R.mpr (by omega)
    simp only [if_neg htest, gives_bind, hsrc, if_neg hac, true_and]
    simp only [eval_get16R, hfield, true_and]
    exact ⟨_, gives_pppInputR.mpr ⟨hfits, rfl⟩⟩
  · rw [forSession_iff, not_and_or, not_not, not_not] at hfor
    by_cases htest : get16 frame 16 ≠ c.session ∨ eval frame (macR 0) = Pppoe.ethBrdcast ∨
        eval frame (macR 0) ≠ cfg.ethAddr
    · simp only [if_pos htest]
      exact hignore
    · simp only [if_neg htest, gives_bind, hsrc, if_pos (hfor.resolve_left htest), true_and]
      exact hignore

/-- **PPP input is bounded** exactly if the frame is long enough for what is read of it, and the replies to the options
of a Configure-Request fit into `outbuffer`. -/
theorem input_bounded_iff (cfg : Pppoe.Config) (c : Pppoe.Client) (frame : ℕ → Byte) (R : ℕ) (s : PppState)
    (hsess : get16 frame 12 = pppoeSessType) : Bounded cfg c frame R s ↔ HandlerFits cfg c frame R s :=
  ⟨handlerFits_of_bounded hsess, bounded_of_handlerFits hsess⟩

/-! ## Frames -/

/-- An Ethernet device, and a session with a concentrator. -/
def exampleConfig : Pppoe.Config := { ethAddr := 0x020000000001 }
def exampleClient : Pppoe.Client := { state := .session, session := 7, acMacAddr := 0x020000000002 }

/-- A frame of the session with a packet in it; behind the packet there is padding. -/
def sessionFrame (len : Word) (packet : List Byte) : ℕ → Byte := fun i =>
  ([2, 0, 0, 0, 0, 1, 2, 0, 0, 0, 0, 2, 0x88, 0x64, 0x11, 0, 0, 7] ++ be16 len ++ packet).getD i 0

/-- A Configure-Request of LCP with one option, of length 0. -/
def emptyOption : ℕ → Byte := sessionFrame 8 [0xc0, 0x21, 1, 1, 0, 6, 5, 0]

/-- It is read inside: the option is rejected, and two bytes of it are copied. -/
theorem empty_option_bounded : Bounded exampleConfig exampleClient emptyOption 60 {} := by
  refine (input_bounded_iff _ _ _ _ _ rfl).mpr ⟨by decide, fun _ _ => by decide, fun _ _ _ => by decide, fun _ _ _ _ => ?_⟩
  refine ⟨by decide, fun x hx => ?_, fun _ hne => absurd rfl (hne .lcp)⟩
  cases x with
  | ipcp => exact absurd hx (by decide)
  | lcp =>
    refine ⟨fun _ => by decide, fun _ _ => ⟨fun _ => ?_, fun hcode => absurd hcode (by decide),
      fun hcode => absurd hcode (by decide), fun hcode => absurd hcode (by decide)⟩⟩
    have hoptions : (options (frameData emptyOption) 2 2 4).1 = [4] := by decide
    refine ⟨.next (by decide) (by decide) (.short (by decide)), fun qs bp rs hsplit => ?_, by decide, by decide⟩
    have hone : [4] = qs ++ bp :: rs := hoptions.symm.trans hsplit
    cases qs with
    | nil =>
      obtain ⟨rfl, -⟩ := List.cons.inj hone
      decide
    | cons q qs => exact absurd (List.cons.inj hone).2.symm (List.append_ne_nil_of_right_ne_nil qs (List.cons_ne_nil bp rs))

/-- Padding, with a length of 0. -/
def emptyFrame : ℕ → Byte := sessionFrame 0 []

/-- The length of what is behind the protocol is 65534 then, and the Protocol-Reject copies 1494 bytes. -/
theorem empty_frame_overread : ¬ Bounded exampleConfig exampleClient emptyFrame 60
    { lcp := { state := .stOpened } } := by
  intro h
  have hfits := (handlerFits_of_bounded rfl h).input rfl rfl rfl ⟨rfl, by decide, rfl, rfl⟩
  refine absurd (hfits.reject (by decide) (fun x => ?_) rfl) (by decide)
  cases x <;> decide

end Watt32.Ppp
