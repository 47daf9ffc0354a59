import Watt32.Lib.Run
import Watt32.Ppp.Automata
import Mathlib.Data.Fintype.Basic

/-!
# IPCP over LCP

* `Control`, `ctlSend`: the phase and the two states alone; **`control_sendEvent`**: they go their own way.
* `Layered`: IPCP is not started before LCP is opened; `ctlSend_layered`: an event from outside keeps that.
* **`layered_run`**: so does every run after `pppStart`.
-/

namespace Watt32.Ppp

open Machine

/-! ## The control alone -/

/-- The phase, the two states, and whether IPCP was set up over an opened link only. -/
structure Control where
  phase : PppPhase
  lcp : XcpState
  ipcp : XcpState
  linked : Bool
  deriving DecidableEq

/-- The control of a state. -/
def control (s : PppState) : Control :=
  ⟨s.phase, s.lcp.state, s.ipcp.state, s.set.all fun a => a.lcp = .stOpened⟩

namespace Control

/-- The state of one of the automata. -/
def xcp (c : Control) : Xcp → XcpState
  | .lcp => c.lcp
  | .ipcp => c.ipcp

/-- Enter a state. -/
def enter (c : Control) (x : Xcp) (next : Option XcpState) : Control :=
  match x with
  | .lcp => { c with lcp := next.getD c.lcp }
  | .ipcp => { c with ipcp := next.getD c.ipcp }

end Control

/-- `phaseEvents`. -/
def ctlEvents (send : Xcp → PppEvent → Control → Option Control) (phase : PppPhase) (c : Control) : Option Control :=
  match phase with
  | .phEstablish => if c.phase = .phDead then send .lcp .evUp c else some c
  | .phNetwork => if c.phase = .phAuthenticate then send .ipcp .evUp c else some c
  | .phTerminate => send .ipcp .evDown c
  | .phAuthenticate | .phDead => some c

/-- `enterPhase`. -/
def ctlPhase (send : Xcp → PppEvent → Control → Option Control) (phase : PppPhase) (c : Control) : Option Control :=
  (ctlEvents send phase c).map fun c => { c with phase := phase }

/-- `changePhase`. -/
def ctlChange (send : Xcp → PppEvent → Control → Option Control) (phase : PppPhase) (c : Control) : Option Control :=
  (ctlPhase send phase c).bind fun c => if phase = .phAuthenticate then ctlPhase send .phNetwork c else some c

/-- What an action does to phase and states. -/
def ctlAction (send : Xcp → PppEvent → Control → Option Control) (x : Xcp) (c : Control) :
    XcpAction → Option Control
  | .acTls => if x = .ipcp then send .lcp .evOpen c else ctlChange send .phEstablish c
  | .acTlf => if x = .ipcp then send .lcp .evClose c else ctlChange send .phTerminate c
  | .acTld => if x = .lcp then ctlChange send .phTerminate c else some c
  | .acTlu =>
    if x = .lcp then ctlChange send .phAuthenticate c
    else some { c with linked := c.linked && decide (c.lcp = .stOpened) }
  | .acIrc | .acScr | .acStr | .acSta | .acSca | .acScn | .acScj | .acZrc | .acSer => some c

/-- `sendEvent`. -/
def ctlSend : (n : ℕ) → Xcp → PppEvent → Control → Option Control
  | 0, _, _, _ => none
  | n + 1, x, e, c =>
    let dp := pppDispatch (c.xcp x) e
    dp.2.foldlM (ctlAction (ctlSend n) x) (c.enter x dp.1)

section Simulation

variable {clock : ℕ → ℕ} {send : Xcp → PppEvent → PppState → Option PppState}
  {csend : Xcp → PppEvent → Control → Option Control} {s : PppState}

theorem control_xcp (x : Xcp) (s : PppState) : (control s).xcp x = (s.xcp x).state := by
  cases x <;> rfl

theorem control_enterState (x : Xcp) (next : Option XcpState) (s : PppState) :
    control (enterState x next s) = (control s).enter x next := by
  cases x <;> rfl

/-- What changes only the data of an automaton. -/
theorem control_modify {x : Xcp} {f : PppXcp → PppXcp} (h : ∀ p, (f p).state = p.state) :
    control (s.modify x f) = control s := by
  cases x
  · exact congrArg (Control.mk s.phase · s.ipcp.state _) (h s.lcp)
  · exact congrArg (Control.mk s.phase s.lcp.state · _) (h s.ipcp)

theorem control_codeId (x : Xcp) (code : Byte) (s : PppState) : control (codeId x code s) = control s :=
  control_modify (s := s) fun _ => rfl

theorem control_createRequest (x : Xcp) (s : PppState) : control (createRequest x s) = control s :=
  control_codeId x codeConfReq s

theorem control_startTimer (x : Xcp) (s : PppState) : control (startTimer clock x s) = control s :=
  control_modify (s := s) fun _ => rfl

theorem control_setAddresses (s : PppState) : control (setAddresses s) =
    { control s with linked := (control s).linked && decide (s.lcp.state = .stOpened) } := by
  simp [control, setAddresses, List.all_append]

variable (hsend : ∀ x e s, (send x e s).map control = csend x e (control s))
include hsend

theorem control_phaseEvents (phase : PppPhase) (s : PppState) :
    (phaseEvents send phase s).map control = ctlEvents csend phase (control s) := by
  cases phase with
  | phDead => rfl
  | phEstablish => exact (apply_ite (Option.map control) _ _ _).trans (if_congr Iff.rfl (hsend _ _ _) rfl)
  | phAuthenticate => rfl
  | phNetwork => exact (apply_ite (Option.map control) _ _ _).trans (if_congr Iff.rfl (hsend _ _ _) rfl)
  | phTerminate => exact hsend .ipcp .evDown s

theorem control_enterPhase (phase : PppPhase) (s : PppState) :
    (enterPhase send phase s).map control = ctlPhase csend phase (control s) := by
  rw [ctlPhase, ← control_phaseEvents hsend, enterPhase, Option.map_map, Option.map_map]
  rfl

theorem control_changePhase (phase : PppPhase) (s : PppState) :
    (changePhase send phase s).map control = ctlChange csend phase (control s) := by
  rw [ctlChange, ← control_enterPhase hsend, changePhase, Option.map_bind, Option.bind_map]
  congr 1
  funext t
  by_cases hp : phase = .phAuthenticate
  · simp only [hp, if_true]
    exact control_enterPhase hsend .phNetwork t
  · simp only [hp, if_false]
    rfl

theorem control_dispatchAction (x : Xcp) (s : PppState) (a : XcpAction) :
    (dispatchAction clock send x s a).map control = ctlAction csend x (control s) a := by
  cases a with
  | acIrc => exact congrArg some (control_modify (s := s) fun _ => rfl)
  | acScr =>
    refine congrArg some ((control_startTimer x _).trans ?_)
    split_ifs
    · exact (control_createRequest x _).trans (control_modify fun _ => rfl)
    · rfl
  | acTls =>
    refine (apply_ite (Option.map control) _ _ _).trans (if_congr Iff.rfl (hsend _ _ _) ?_)
    exact control_changePhase hsend _ s
  | acTlf =>
    refine (apply_ite (Option.map control) _ _ _).trans (if_congr Iff.rfl (hsend _ _ _) ?_)
    exact control_changePhase hsend _ s
  | acStr =>
    refine congrArg some ((control_startTimer x _).trans ?_)
    split_ifs
    · exact (control_codeId x codeTermReq _).trans (control_modify fun _ => rfl)
    · rfl
  | acSta => rfl
  | acSca => exact congrArg some (control_modify (s := s) fun _ => rfl)
  | acScn => exact congrArg some (control_modify (s := s) fun _ => rfl)
  | acScj => rfl
  | acTld =>
    refine (apply_ite (Option.map control) _ _ _).trans (if_congr Iff.rfl ?_ rfl)
    exact control_changePhase hsend _ s
  | acTlu =>
    have hm (r : Option PppState) : (r.map fun s => s.modify x fun p =>
        { p with restart := maxConfigure, timeout := 0 }).map control = r.map control := by
      rw [Option.map_map]
      congr 1
      funext t
      exact control_modify fun _ => rfl
    refine (hm _).trans ((apply_ite (Option.map control) _ _ _).trans (if_congr Iff.rfl ?_ ?_))
    · exact control_changePhase hsend _ s
    · exact congrArg some (control_setAddresses s)
  | acZrc => exact congrArg some (control_modify (s := s) fun _ => rfl)
  | acSer => rfl

end Simulation

/-- **The control goes its own way**: phase and states after an event depend on phase and states only. -/
theorem control_sendEvent (clock : ℕ → ℕ) : ∀ (n : ℕ) (x : Xcp) (e : PppEvent) (s : PppState),
    (sendEvent clock n x e s).map control = ctlSend n x e (control s)
  | 0, _, _, _ => rfl
  | n + 1, x, e, s => by
    rw [sendEvent, ctlSend, control_xcp, ← control_enterState]
    exact map_foldlM (control_dispatchAction (control_sendEvent clock n) x) _ _

/-! ## The layers -/

instance : Fintype PppPhase where
  elems := {.phDead, .phEstablish, .phAuthenticate, .phNetwork, .phTerminate}
  complete p := by cases p <;> decide

instance : Fintype XcpState where
  elems := {.stInitial, .stStarting, .stClosed, .stStopped, .stClosing, .stStopping, .stReqSent, .stAckRcvd,
    .stAckSent, .stOpened}
  complete s := by cases s <;> decide

instance : Fintype PppEvent where
  elems := {.evUp, .evDown, .evOpen, .evClose, .evTOp, .evTOm, .evRCRp, .evRCRm, .evRCA, .evRCN, .evRTR, .evRTA,
    .evRUC, .evRXJp, .evRXJm, .evRXR}
  complete e := by cases e <;> decide

/-- The states of an automaton that is not started. -/
def Down (st : XcpState) : Prop := st = .stInitial ∨ st = .stStarting

instance (st : XcpState) : Decidable (Down st) := inferInstanceAs (Decidable (_ ∨ _))

/-- IPCP is not started before LCP is opened, and was not set up before. -/
def Layered (c : Control) : Prop := c.linked = true ∧ (c.lcp = .stOpened ∨ Down c.ipcp)

instance (c : Control) : Decidable (Layered c) := inferInstanceAs (Decidable (_ ∧ _))

/-- The events that come from outside. -/
def Outer (e : PppEvent) : Prop := e ≠ .evUp ∧ e ≠ .evDown ∧ e ≠ .evOpen ∧ e ≠ .evClose

instance (e : PppEvent) : Decidable (Outer e) := inferInstanceAs (Decidable (_ ∧ _))

/-- They do nothing to an automaton that is not started. -/
theorem pppDispatch_down {st : XcpState} {e : PppEvent} (hst : Down st) (he : Outer e) :
    pppDispatch st e = (none, []) := by
  obtain ⟨h₁, h₂, h₃, h₄⟩ := he
  rcases hst with rfl | rfl <;> cases e <;> first | rfl | contradiction

-- What follows goes through the nested events of each case: there are finitely many.

/-- An LCP that is opened may close: then it takes IPCP down with it. -/
theorem ctlSend_lcp_opened : ∀ (phase : PppPhase) (st : XcpState) (e : PppEvent), Outer e →
    ∃ c ∈ ctlSend depth .lcp e ⟨phase, .stOpened, st, true⟩, Layered c := by
  decide +kernel

/-- An LCP that is not opened starts IPCP only if it opens. -/
theorem ctlSend_lcp_initial : ∀ (phase : PppPhase) (st : XcpState) (e : PppEvent), Outer e →
    ∃ c ∈ ctlSend depth .lcp e ⟨phase, st, .stInitial, true⟩, Layered c := by
  decide +kernel

theorem ctlSend_lcp_starting : ∀ (phase : PppPhase) (st : XcpState) (e : PppEvent), Outer e →
    ∃ c ∈ ctlSend depth .lcp e ⟨phase, st, .stStarting, true⟩, Layered c := by
  decide +kernel

/-- IPCP, over an LCP that is opened, closes it only when it is down itself. -/
theorem ctlSend_ipcp_opened : ∀ (phase : PppPhase) (st : XcpState) (e : PppEvent), Outer e →
    ∃ c ∈ ctlSend depth .ipcp e ⟨phase, .stOpened, st, true⟩, Layered c := by
  decide +kernel

/-- IPCP that is down does nothing. -/
theorem ctlSend_ipcp_down {c : Control} {e : PppEvent} (hc : Down c.ipcp) (he : Outer e) :
    ctlSend depth .ipcp e c = some c := by
  have hd : pppDispatch (c.xcp .ipcp) e = (none, []) := pppDispatch_down hc he
  rw [depth, ctlSend, hd]
  rfl

/-- **An event from outside keeps the layers**, whatever it brings with it. -/
theorem ctlSend_layered {c : Control} (x : Xcp) {e : PppEvent} (hc : Layered c) (he : Outer e) :
    ∃ c' ∈ ctlSend depth x e c, Layered c' := by
  obtain ⟨phase, lcp, ipcp, linked⟩ := c
  obtain ⟨rfl, hl⟩ := hc
  cases x with
  | lcp =>
    rcases hl with rfl | rfl | rfl
    · exact ctlSend_lcp_opened phase ipcp e he
    · exact ctlSend_lcp_initial phase lcp e he
    · exact ctlSend_lcp_starting phase lcp e he
  | ipcp =>
    rcases hl with rfl | hd
    · exact ctlSend_ipcp_opened phase ipcp e he
    · exact ⟨_, ctlSend_ipcp_down hd he, rfl, .inr hd⟩

theorem sendEvent_layered (clock : ℕ → ℕ) {s : PppState} (x : Xcp) {e : PppEvent} (hs : Layered (control s))
    (he : Outer e) : ∃ t ∈ sendEvent clock depth x e s, Layered (control t) := by
  obtain ⟨c, hc, hl⟩ := ctlSend_layered x hs he
  rw [← control_sendEvent clock] at hc
  obtain ⟨t, ht, rfl⟩ := Option.map_eq_some_iff.mp hc
  exact ⟨t, ht, hl⟩

/-! ## The code -/

variable {clock : ℕ → ℕ} {s : PppState}

theorem control_codeReply (x : Xcp) (code : Byte) (s : PppState) : control (codeReply x code s) = control s := rfl

/-- Looking at an option of a request does not concern the automata. -/
theorem control_checkOption (x : Xcp) (s : PppState) (bp : ℕ) : control (checkOption x s bp) = control s := by
  have hrej (bp : ℕ) : control (setReject x bp s) = control s := by
    unfold setReject
    split_ifs <;> rfl
  have hnak (type : Byte) (data : List Byte) : control (setNak x type data s) = control s := by
    unfold setNak
    split_ifs <;> rfl
  unfold checkOption
  cases findType x (s.inbuffer bp) with
  | none => exact hrej bp
  | some p =>
    obtain ⟨t, i⟩ := p
    simp only
    split_ifs
    · exact hnak _ _
    · exact hnak _ _
    · unfold ipcpAddrReq
      simp only
      split_ifs
      · rfl
      · exact hnak _ _
    · rfl

theorem control_validateRequest (x : Xcp) (s : PppState) : control (validateRequest x s) = control s := by
  have hfold : ∀ (ps : List ℕ) (s : PppState), control (ps.foldl (checkOption x) s) = control s := by
    intro ps
    induction ps with
    | nil => exact fun _ => rfl
    | cons bp ps ih => exact fun s => (ih _).trans (control_checkOption x s bp)
  unfold validateRequest
  simp only
  split_ifs <;> exact hfold _ _

theorem control_processRcx (x : Xcp) (code : Byte) (s : PppState) : control (processRcx x code s) = control s := by
  have hone (s : PppState) (bp : ℕ) : control (processOption x code s bp) = control s := by
    unfold processOption
    cases findType x (s.inbuffer bp) with
    | none => rfl
    | some p =>
      simp only
      split_ifs <;> exact control_modify fun _ => rfl
  unfold processRcx
  generalize s.options.1 = ps
  induction ps generalizing s with
  | nil => rfl
  | cons bp ps ih => exact (ih _).trans (hone s bp)

theorem forall_mem_ite {α : Type} {c : Prop} [Decidable c] {r r' : Option α} {P : α → Prop}
    (h : ∀ p ∈ r, P p) (h' : ∀ p ∈ r', P p) : ∀ p ∈ if c then r else r', P p := by
  split_ifs
  · exact h
  · exact h'

/-- Packets bring events from outside only. -/
theorem receive_outer (x : Xcp) (code id : Byte) (s : PppState) :
    ∀ p ∈ receive x code id s, Outer p.2.1 ∧ control p.2.2 = control s := by
  have hnone : ∀ p ∈ (none : Option (Xcp × PppEvent × PppState)), Outer p.2.1 ∧ control p.2.2 = control s :=
    fun _ h => absurd h (Option.not_mem_none _)
  have hsome (y : Xcp) (e : PppEvent) (t : PppState) (ht : control t = control s) (he : Outer e) :
      ∀ p ∈ some (y, e, t), Outer p.2.1 ∧ control p.2.2 = control s := by
    rintro _ ⟨⟩
    exact ⟨he, ht⟩
  have hrcx (e : PppEvent) := hsome x e (processRcx x code s) (control_processRcx x code s)
  have hsame (y : Xcp) (e : PppEvent) := hsome y e s rfl
  have hbp (e : PppEvent) (n : ℕ) := hsome x e { s with bp := n } rfl
  unfold receive
  refine forall_mem_ite (hsome x _ _ (control_validateRequest x s) ?_) ?_
  · split_ifs <;> decide
  refine forall_mem_ite (forall_mem_ite (hrcx .evRCA (by decide)) hnone) ?_
  refine forall_mem_ite (forall_mem_ite (hrcx .evRCN (by decide)) hnone) ?_
  refine forall_mem_ite (hsame x .evRTR (by decide)) ?_
  refine forall_mem_ite (forall_mem_ite (hsame x .evRTA (by decide)) hnone) ?_
  refine forall_mem_ite (hbp _ (s.bp + 1) ?_) ?_
  · split_ifs <;> decide
  refine forall_mem_ite (forall_mem_ite (hsame .lcp .evRXJm (by decide)) (hsame x .evRXJp (by decide))) ?_
  refine forall_mem_ite (hsame x .evRXR (by decide)) ?_
  refine forall_mem_ite (forall_mem_ite (hsame x .evRXR (by decide)) hnone) ?_
  exact hbp .evRUC (s.bp - 4) (by decide)

/-- A peer that does not know IPCP stops it. -/
theorem layered_stopRejected (code : Byte) (proto : Word) (hs : Layered (control s)) :
    Layered (control (stopRejected code proto s)) := by
  unfold stopRejected
  split_ifs
  · exact ⟨hs.1, .inr (.inl rfl)⟩
  · exact hs

theorem negotiate_layered (x : Xcp) (code id : Byte) (hs : Layered (control s)) :
    ∃ t ∈ negotiate clock x code id s, Layered (control t) := by
  unfold negotiate
  cases hr : receive x code id s with
  | none => exact ⟨s, rfl, hs⟩
  | some p =>
    obtain ⟨y, e, t⟩ := p
    obtain ⟨he, hc⟩ : Outer e ∧ control t = control s := receive_outer x code id s _ hr
    obtain ⟨u, hu, hl⟩ := sendEvent_layered clock y (hc ▸ hs) he
    exact ⟨_, Option.mem_map_of_mem _ hu, layered_stopRejected _ _ hl⟩

theorem stdNegotiation_layered (x : Xcp) (hs : Layered (control s)) :
    ∃ t ∈ stdNegotiation clock x s, Layered (control t) := by
  unfold stdNegotiation
  by_cases hm : s.mlen < 4
  · rw [if_pos hm]
    exact ⟨s, rfl, hs⟩
  · rw [if_neg hm]
    by_cases hl : s.mlen < (get16 s.inbuffer (s.bp + 2)).toNat
    · exact ⟨_, if_pos hl, hs⟩
    · simp only [if_neg hl]
      exact negotiate_layered x _ _ hs

theorem pppInput_layered (p : Packet) (hs : Layered (control s)) :
    ∃ t ∈ pppInput clock p s, Layered (control t) := by
  unfold pppInput
  simp only
  split_ifs
  · exact ⟨_, rfl, hs⟩
  · exact stdNegotiation_layered .lcp hs
  · exact stdNegotiation_layered .ipcp hs
  · refine ⟨_, rfl, ?_⟩
    have hc : control (protocolReject p { s with inbuffer := fun i => p.mem (i + 2) }) = control s :=
      control_codeId .lcp codeProtoRej s
    exact hc ▸ hs
  · exact ⟨_, rfl, hs⟩

theorem checkTimeout_layered (clock : ℕ → ℕ) (now : ℕ) (x : Xcp) (hs : Layered (control s)) :
    ∃ t ∈ checkTimeout clock now x s, Layered (control t) := by
  unfold checkTimeout
  by_cases ht : (s.xcp x).timeout ≠ 0 ∧ (s.xcp x).timeout ≤ now
  · rw [if_pos ht]
    refine sendEvent_layered clock x ?_ (by split_ifs <;> decide)
    refine (congrArg Layered (control_modify ?_)).mpr hs
    exact fun _ => rfl
  · rw [if_neg ht]
    exact ⟨s, rfl, hs⟩

theorem checkTimeouts_layered (hs : Layered (control s)) :
    ∃ t ∈ checkTimeouts clock s, Layered (control t) := by
  have hp : Layered (control (if s.timeoutPeriod < maxTimeout then { s with timeoutPeriod := 2 * s.timeoutPeriod }
      else s)) := by
    split_ifs <;> exact hs
  unfold checkTimeouts
  generalize (if s.timeoutPeriod < maxTimeout then _ else s : PppState) = s' at hp
  have hr : Layered (control { s' with readings := s'.readings + 1 }) := hp
  obtain ⟨t, ht, hl⟩ := checkTimeout_layered clock (clock s'.readings) .lcp hr
  obtain ⟨u, hu, hl'⟩ := checkTimeout_layered clock (clock s'.readings) .ipcp hl
  exact ⟨u, Option.mem_bind_iff.mpr ⟨t, ht, hu⟩, hl'⟩

/-- A step keeps the layers. -/
theorem handle_layered (clock : ℕ → ℕ) (a : Op) (hs : Layered (control s)) : ∃ t ∈ handle clock s a, Layered (control t) := by
  cases a with
  | input p => exact pppInput_layered p hs
  | checkTimeouts => exact checkTimeouts_layered hs

/-- So does the start. -/
theorem pppStart_layered (clock : ℕ → ℕ) (magic : Dword) (r₁ r₂ : ℕ) (s : PppState) :
    ∃ t ∈ pppStart clock magic r₁ r₂ s, Layered (control t) := by
  have hc : ∃ c ∈ ctlSend depth .ipcp .evOpen ⟨.phDead, .stInitial, .stInitial, true⟩, Layered c := by decide
  obtain ⟨c, hc, hl⟩ := hc
  unfold pppStart
  simp only
  generalize hs' : PppState.modify _ _ _ = s'
  have hs'' : control s' = ⟨.phDead, .stInitial, .stInitial, true⟩ := by rw [← hs']; rfl
  rw [← hs'', ← control_sendEvent clock] at hc
  obtain ⟨t, ht, rfl⟩ := Option.map_eq_some_iff.mp hc
  exact ⟨t, ht, hl⟩

/-- **IPCP runs over an opened link only**: whatever comes after the start, every step ends, and then IPCP is in
Req-Sent, Ack-Rcvd, Ack-Sent or Opened only with LCP in Opened, and only so it ever set the addresses. -/
theorem layered_run (clock : ℕ → ℕ) (magic : Dword) (r₁ r₂ : ℕ) (s₀ : PppState) (ops : List Op) :
    ∃ s ∈ pppStart clock magic r₁ r₂ s₀, ∃ t ∈ ops.foldlM (handle clock) s,
      (t.ipcp.state ∈ [.stReqSent, .stAckRcvd, .stAckSent, .stOpened] → t.lcp.state = .stOpened) ∧
      ∀ a ∈ t.set, a.lcp = .stOpened := by
  obtain ⟨s, hs, hl⟩ := pppStart_layered clock magic r₁ r₂ s₀
  obtain ⟨t, ht, hset, hlay⟩ := foldlM_invariant (fun _ a h => handle_layered clock a h) ops hl
  refine ⟨s, hs, t, ht, fun hi => hlay.resolve_right ?_, by simpa [control] using hset⟩
  rintro (h | h) <;> simp [show t.ipcp.state = _ from h] at hi

end Watt32.Ppp
