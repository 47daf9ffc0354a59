import Watt32.Lib.Run

/-!
# PPPoE discovery

`pppoe.c`: a session is made by an offer (PADO), a request for it (PADR) and a confirmation (PADS).

* `pppoeHandler`, `offerLoop`, `requestLoop`, `poll`: the code, with `pppoe_discovery` cut where it waits.
* `Bound`: what a session should be like: made with the concentrator that was asked, up until it ends.
* `StepOk`: the steps after which it is.
* **`session_bound_iff`**: a run obeys the law exactly if all its steps are such.
-/

namespace Watt32.Pppoe

open Machine

abbrev Word := BitVec 16
abbrev MacAddress := BitVec 48

/-! ## The data -/

/-- `enum States`. -/
inductive States
  | none | discovery | session
  deriving DecidableEq

/-- The types of an Ethernet frame. -/
inductive EthType
  | disc | sess | other
  deriving DecidableEq

/-- The codes of a PPPoE header. -/
inductive Code
  | padi | pado | padr | pads | padt | padm | padn | sess | other
  deriving DecidableEq

/-- What `pppoe_handler` reads of a frame. -/
structure Frame where
  src : MacAddress
  dst : MacAddress
  ethType : EthType
  ver : BitVec 4 := 1
  type : BitVec 4 := 1
  code : Code
  session : Word := 0
  deriving DecidableEq

/-- `cfg.enable` on an Ethernet device, `cfg.retries`, and `_eth_addr`. -/
structure Config where
  enable : Bool := true
  retries : ℕ := 3
  ethAddr : MacAddress

/-- `_eth_brdcast`. -/
def ethBrdcast : MacAddress := 0xffffffffffff

/-- Where the program is: before `pppoe_init` or after `pppoe_exit`, before `pppoe_start`, in `pppoe_wait` for an
offer or for a confirmation, after a discovery that failed, or after one that succeeded. -/
inductive Stage
  | off | ready | offer (loop : ℕ) | request (loop : ℕ) | failed | up
  deriving DecidableEq

/-- The globals, the stage, and (ghosts) where the last PADR went, who sent the last PADO since, who sent the
last PADS and with which session, and whether a PADT for the session came. -/
structure Client where
  gotPado : Bool := false
  gotPads : Bool := false
  gotPadt : Bool := false
  gotPadm : Bool := false
  session : Word := 0
  state : States := .none
  acMacAddr : MacAddress := 0
  stage : Stage := .off
  padrTo : Option MacAddress := none
  offer : Option MacAddress := none
  confirm : Option (MacAddress × Word) := none
  ended : Bool := false

/-! ## The code -/

/-- `pppoe_init`. -/
def pppoeInit (s : Client) : Client :=
  { s with
    state := .discovery, gotPado := false, gotPads := false, gotPadt := false, acMacAddr := ethBrdcast
    stage := .ready, padrTo := none, offer := none, confirm := none }

/-- The first loop of `pppoe_discovery` from this turn on: a PADI is sent. -/
def offerLoop (cfg : Config) (sendOk : Bool) (loop : ℕ) (s : Client) : Client :=
  if loop ≤ cfg.retries ∧ sendOk then { s with stage := .offer loop } else { s with stage := .failed }

/-- The second loop: a PADR is sent to the concentrator. -/
def requestLoop (cfg : Config) (sendOk : Bool) (loop : ℕ) (s : Client) : Client :=
  if loop ≤ cfg.retries ∧ sendOk then
    { s with stage := .request loop, padrTo := some s.acMacAddr, offer := none }
  else { s with stage := .failed }

/-- `pppoe_start`, up to the first wait. -/
def pppoeStart (cfg : Config) (sendOk : Bool) (s : Client) : Client :=
  if cfg.enable then offerLoop cfg sendOk 1 s else s

/-- The end of `pppoe_start`. -/
def succeed (s : Client) : Client := { s with state := .session, stage := .up, ended := false }

/-- A turn of the loop in `pppoe_wait`, after `tcp_tick`. -/
def poll (cfg : Config) (timedOut sendOk : Bool) (s : Client) : Client :=
  match s.stage with
  | .offer loop =>
    if s.gotPado then requestLoop cfg sendOk 1 s
    else if timedOut then offerLoop cfg sendOk (loop + 1) s
    else s
  | .request loop =>
    if s.gotPads then succeed s
    else if timedOut then requestLoop cfg sendOk (loop + 1) s
    else s
  | _ => s

/-- `pppoe_exit`. -/
def pppoeExit (cfg : Config) (s : Client) : Client :=
  if cfg.enable = false ∨ s.state = .none then { s with stage := .off }
  else { s with session := 0, state := .none, acMacAddr := ethBrdcast, stage := .off }

/-- `pppoe_handler`. What it gives to `ppp_input` does not come back here. -/
def pppoeHandler (f : Frame) (s : Client) : Client :=
  if f.type ≠ 1 ∨ f.ver ≠ 1 then s
  else if f.ethType = .sess ∧ s.state = .session then s
  else if f.dst ≠ ethBrdcast ∧ f.ethType = .disc ∧ s.state = .discovery then
    if f.code = .pado then { s with gotPado := true, acMacAddr := f.src, offer := some f.src }
    else if f.code = .padt ∧ f.session = s.session then { s with gotPadt := true, session := 0 }
    else if f.code = .pads then
      { s with gotPads := true, session := f.session, confirm := some (f.src, f.session) }
    else if f.code = .padm then { s with gotPadm := true }
    else s
  else s

/-- `pppoe_is_up`. -/
def pppoeIsUp (cfg : Config) (dest : MacAddress) (s : Client) : Bool :=
  if cfg.enable = false ∨ dest ≠ s.acMacAddr then false else s.session ≠ 0 ∧ s.gotPadt = false

/-! ## The machine -/

/-- What happens. -/
inductive Op
  | init
  | start (sendOk : Bool)
  | frame (f : Frame)
  | poll (timedOut sendOk : Bool)
  | exit

/-- A PADT for our session, from the concentrator. -/
def EndsSession (cfg : Config) (f : Frame) (s : Client) : Prop :=
  f.type = 1 ∧ f.ver = 1 ∧ f.ethType = .disc ∧ f.code = .padt ∧ f.dst = cfg.ethAddr ∧ f.dst ≠ ethBrdcast ∧
    f.src = s.acMacAddr ∧ f.session = s.session

instance (cfg : Config) (f : Frame) (s : Client) : Decidable (EndsSession cfg f s) :=
  inferInstanceAs (Decidable (_ ∧ _))

/-- One step. The program calls `pppoe_init`, `pppoe_start` and `pppoe_exit` in this order. -/
def step (cfg : Config) (s : Client) : Op → Client
  | .init => if s.stage = .off then pppoeInit s else s
  | .start sendOk => if s.stage = .ready then pppoeStart cfg sendOk s else s
  | .frame f => { pppoeHandler f s with ended := s.ended || decide (s.stage = .up ∧ EndsSession cfg f s) }
  | .poll timedOut sendOk => poll cfg timedOut sendOk s
  | .exit => if s.stage = .off then s else pppoeExit cfg s

/-! ## The law -/

/-- The wait for a confirmation is over. -/
def Answered (s : Client) : Prop := (∃ loop, s.stage = .request loop) ∧ s.gotPads = true

/-- What a session should be like. -/
structure Bound (cfg : Config) (s : Client) : Prop where
  /-- The concentrator is the one that was asked, and the session is the one it gave. -/
  same : s.stage = .up → s.padrTo = some s.acMacAddr ∧ s.confirm = some (s.acMacAddr, s.session)
  /-- The session is up after the discovery. -/
  up : s.stage = .up → s.ended = false → pppoeIsUp cfg s.acMacAddr s = true
  /-- It is not up after its end, until the next one is confirmed. -/
  down : s.ended = true → ¬ Answered s → ∀ dest, pppoeIsUp cfg dest s = false

/-- The offer and the confirmation are those of the concentrator that was asked, and no PADT came. -/
structure SuccessOk (s : Client) : Prop where
  offer : ∀ m ∈ s.offer, s.padrTo = some m
  confirm : ∀ p ∈ s.confirm, s.padrTo = some p.1 ∧ p.2 ≠ 0
  padt : s.gotPadt = false

/-- The steps that keep the law. -/
def StepOk (cfg : Config) (s : Client) : Op → Prop
  | .frame f => s.stage = .up → ¬ EndsSession cfg f s
  | .poll _ _ => Answered s → SuccessOk s
  | .init | .start _ | .exit => True

/-! ## What the steps keep -/

variable {cfg : Config} {s : Client} {f : Frame}

/-- A confirmation set the session, unless a PADT cleared it. -/
def Confirmed (s : Client) : Prop :=
  s.gotPads = true → ∃ p, s.confirm = some p ∧ (s.gotPadt = false → s.session = p.2)

/-- What a run keeps that obeys the law. -/
structure Inv (cfg : Config) (s : Client) : Prop where
  bound : Bound cfg s
  ended : s.ended = false
  enable : ∀ loop, s.stage = .offer loop ∨ s.stage = .request loop → cfg.enable = true
  asked : ∀ loop, s.stage = .request loop → ∃ m, s.padrTo = some m ∧ s.acMacAddr = s.offer.getD m
  confirmed : s.stage ≠ .off → Confirmed s
  state : s.stage = .up → s.state = .session

theorem bound_of_stage (h : s.stage ≠ .up) (he : s.ended = false) : Bound cfg s :=
  ⟨fun hu => absurd hu h, fun hu => absurd hu h, fun ht => by rw [he] at ht; cases ht⟩

/-- With the session up frames change nothing here. -/
theorem pppoeHandler_session (f : Frame) (h : s.state = .session) : pppoeHandler f s = s := by
  unfold pppoeHandler
  split_ifs <;> simp_all

theorem step_frame_session (f : Frame) (h : s.state = .session) : step cfg s (.frame f) =
    { s with ended := s.ended || decide (s.stage = .up ∧ EndsSession cfg f s) } := by
  simp only [step, pppoeHandler_session f h]

/-- What a frame leaves alone. -/
theorem pppoeHandler_stage (f : Frame) (s : Client) : (pppoeHandler f s).stage = s.stage ∧
    (pppoeHandler f s).padrTo = s.padrTo ∧ (pppoeHandler f s).state = s.state ∧
    (pppoeHandler f s).ended = s.ended := by
  unfold pppoeHandler
  split_ifs <;> exact ⟨rfl, rfl, rfl, rfl⟩

/-- An offer sets the address and is remembered. -/
theorem pppoeHandler_offer (f : Frame) {m : MacAddress} (h : s.acMacAddr = s.offer.getD m) :
    (pppoeHandler f s).acMacAddr = (pppoeHandler f s).offer.getD m := by
  unfold pppoeHandler
  split_ifs
  all_goals first | exact h | rfl

/-- A confirmation sets the session and is remembered; a PADT is remembered too. -/
theorem pppoeHandler_confirmed (f : Frame) (h : Confirmed s) : Confirmed (pppoeHandler f s) := by
  unfold pppoeHandler
  split_ifs
  case pos => exact h
  all_goals first
    | exact h
    | exact fun _ => ⟨_, rfl, fun _ => rfl⟩
    | exact fun hp => (h hp).imp fun _ hc => ⟨hc.1, nofun⟩

/-! ## The end of a discovery -/

theorem pppoeIsUp_iff {dest : MacAddress} : pppoeIsUp cfg dest s = true ↔
    cfg.enable = true ∧ dest = s.acMacAddr ∧ s.session ≠ 0 ∧ s.gotPadt = false := by
  unfold pppoeIsUp
  by_cases hen : cfg.enable = false
  · simp [hen]
  · by_cases hd : dest = s.acMacAddr
    · simp [hen, hd]
    · simp [hd]

/-- A session is as it should be exactly if offer, confirmation and PADT are as they should be. -/
theorem bound_succeed_iff (hI : Inv cfg s) (ha : Answered s) : Bound cfg (succeed s) ↔ SuccessOk s := by
  obtain ⟨⟨loop, hst⟩, hp⟩ := ha
  obtain ⟨m, hm, hac⟩ := hI.asked loop hst
  obtain ⟨p, hc, hse⟩ := hI.confirmed (by simp [hst]) hp
  have hen : cfg.enable = true := hI.enable loop (.inr hst)
  constructor
  · intro hB
    obtain ⟨hsm, hsc⟩ : s.padrTo = some s.acMacAddr ∧ s.confirm = some (s.acMacAddr, s.session) :=
      hB.same rfl
    have hup : pppoeIsUp cfg s.acMacAddr (succeed s) = true := hB.up rfl rfl
    obtain ⟨-, -, hne, ht⟩ := pppoeIsUp_iff.mp hup
    refine ⟨fun m' hm' => ?_, fun q hq => ?_, ht⟩
    · have hof : s.offer = some m' := hm'
      rw [hsm, hac, hof, Option.getD_some]
    · have hcq : s.confirm = some q := hq
      have hqe : q = (s.acMacAddr, s.session) := Option.some_inj.mp (hcq.symm.trans hsc)
      rw [hqe]
      exact ⟨hsm, hne⟩
  · intro hS
    obtain ⟨hp1, hp2⟩ := hS.confirm p hc
    have hmp : m = p.1 := Option.some_inj.mp (hm.symm.trans hp1)
    have hacm : s.acMacAddr = m := by
      cases hof : s.offer with
      | none => rw [hac, hof, Option.getD_none]
      | some m' =>
        have hm' : s.padrTo = some m' := hS.offer m' hof
        rw [hac, hof, Option.getD_some]
        exact Option.some_inj.mp (hm'.symm.trans hm)
    have hss : s.session = p.2 := hse hS.padt
    refine ⟨fun _ => ⟨?_, ?_⟩, fun _ _ => ?_, nofun⟩
    · change s.padrTo = some s.acMacAddr
      rw [hacm, hm]
    · change s.confirm = some (s.acMacAddr, s.session)
      rw [hacm, hss, hc, hmp]
    · refine pppoeIsUp_iff.mpr ⟨hen, rfl, ?_, hS.padt⟩
      change s.session ≠ 0
      rw [hss]
      exact hp2

/-! ## One step -/

/-- Outside a session, in a stage that does not wait for a confirmation, there is little to keep. -/
theorem inv_of_stage (hB : Bound cfg s) (he : s.ended = false) (hst : s.stage = .off ∨ s.stage = .failed)
    (hc : s.stage ≠ .off → Confirmed s) : Inv cfg s := by
  refine ⟨hB, he, ?_, ?_, hc, ?_⟩
  all_goals rcases hst with hst | hst <;> simp [hst]

/-- Waiting for an offer. -/
theorem inv_offerLoop (sendOk : Bool) (loop : ℕ) (hen : cfg.enable = true) (he : s.ended = false)
    (hc : Confirmed s) : Inv cfg (offerLoop cfg sendOk loop s) := by
  unfold offerLoop
  by_cases hok : loop ≤ cfg.retries ∧ sendOk = true
  · rw [if_pos hok]
    exact ⟨bound_of_stage nofun he, he, fun _ _ => hen, nofun, fun _ => hc, nofun⟩
  · rw [if_neg hok]
    exact inv_of_stage (bound_of_stage nofun he) he (.inr rfl) fun _ => hc

/-- Waiting for a confirmation: the PADR goes to the concentrator of the last offer. -/
theorem inv_requestLoop (sendOk : Bool) (loop : ℕ) (hen : cfg.enable = true) (he : s.ended = false)
    (hc : Confirmed s) : Inv cfg (requestLoop cfg sendOk loop s) := by
  unfold requestLoop
  by_cases hok : loop ≤ cfg.retries ∧ sendOk = true
  · rw [if_pos hok]
    exact ⟨bound_of_stage nofun he, he, fun _ _ => hen, fun _ _ => ⟨_, rfl, rfl⟩, fun _ => hc, nofun⟩
  · rw [if_neg hok]
    exact inv_of_stage (bound_of_stage nofun he) he (.inr rfl) fun _ => hc

theorem inv_init (hI : Inv cfg s) : Inv cfg (step cfg s .init) := by
  by_cases hst : s.stage = .off
  · rw [step, if_pos hst]
    exact ⟨bound_of_stage nofun hI.ended, hI.ended, nofun, nofun, fun _ => nofun, nofun⟩
  · rw [step, if_neg hst]
    exact hI

theorem inv_start (sendOk : Bool) (hI : Inv cfg s) : Inv cfg (step cfg s (.start sendOk)) := by
  by_cases hst : s.stage = .ready
  · rw [step, if_pos hst, pppoeStart]
    by_cases hen : cfg.enable = true
    · rw [if_pos hen]
      exact inv_offerLoop sendOk 1 hen hI.ended (hI.confirmed (by simp [hst]))
    · rw [if_neg hen]
      exact hI
  · rw [step, if_neg hst]
    exact hI

theorem inv_exit (hI : Inv cfg s) : Inv cfg (step cfg s .exit) := by
  by_cases hst : s.stage = .off
  · rw [step, if_pos hst]
    exact hI
  · rw [step, if_neg hst, pppoeExit]
    split_ifs
    all_goals exact inv_of_stage (bound_of_stage nofun hI.ended) hI.ended (.inl rfl) fun h => absurd rfl h

/-- A turn that does not end the wait for a confirmation. -/
theorem inv_poll_waiting (timedOut sendOk : Bool) (hI : Inv cfg s) (ha : ¬ Answered s) :
    Inv cfg (step cfg s (.poll timedOut sendOk)) := by
  change Inv cfg (poll cfg timedOut sendOk s)
  unfold poll
  split
  case h_1 loop hst =>
    have hen : cfg.enable = true := hI.enable loop (.inl hst)
    have hc : Confirmed s := hI.confirmed (by simp [hst])
    split_ifs
    · exact inv_requestLoop sendOk 1 hen hI.ended hc
    · exact inv_offerLoop sendOk (loop + 1) hen hI.ended hc
    · exact hI
  case h_2 loop hst =>
    have hno : ¬ s.gotPads = true := fun hp => ha ⟨⟨loop, hst⟩, hp⟩
    have hen : cfg.enable = true := hI.enable loop (.inr hst)
    rw [if_neg hno]
    split_ifs
    · exact inv_requestLoop sendOk (loop + 1) hen hI.ended (hI.confirmed (by simp [hst]))
    · exact hI
  case h_3 => exact hI

theorem poll_answered (timedOut sendOk : Bool) (ha : Answered s) : poll cfg timedOut sendOk s = succeed s := by
  obtain ⟨⟨loop, hst⟩, hp⟩ := ha
  simp [poll, hst, hp]

theorem inv_poll_answered (timedOut sendOk : Bool) (hI : Inv cfg s) (ha : Answered s) (hS : SuccessOk s) :
    Inv cfg (step cfg s (.poll timedOut sendOk)) := by
  obtain ⟨⟨loop, hst⟩, -⟩ := id ha
  change Inv cfg (poll cfg timedOut sendOk s)
  rw [poll_answered timedOut sendOk ha]
  exact ⟨(bound_succeed_iff hI ha).mpr hS, rfl, nofun, nofun, fun _ => hI.confirmed (by simp [hst]),
    fun _ => rfl⟩

/-- A frame that does not end a session. -/
theorem inv_frame (f : Frame) (hI : Inv cfg s) (hf : s.stage = .up → ¬ EndsSession cfg f s) :
    Inv cfg (step cfg s (.frame f)) := by
  have hend : (s.ended || decide (s.stage = .up ∧ EndsSession cfg f s)) = false := by
    have hno : ¬ (s.stage = .up ∧ EndsSession cfg f s) := fun h => hf h.1 h.2
    rw [hI.ended, Bool.false_or, decide_eq_false hno]
  obtain ⟨hst, hto, hse, -⟩ := pppoeHandler_stage f s
  by_cases hup : s.stage = .up
  · -- in the session the handler changes nothing
    have hs : step cfg s (.frame f) = s := by
      rw [step_frame_session f (hI.state hup), hend, ← hI.ended]
    rw [hs]
    exact hI
  · refine ⟨bound_of_stage (fun h => hup (hst.symm.trans h)) hend, hend, fun loop hl => ?_, fun loop hl => ?_,
      fun ho => ?_, fun hu => ?_⟩
    · exact hI.enable loop (hst ▸ hl)
    · obtain ⟨m, hm, hac⟩ := hI.asked loop (hst.symm.trans hl)
      exact ⟨m, hto.trans hm, pppoeHandler_offer f hac⟩
    · exact pppoeHandler_confirmed f (hI.confirmed fun h => ho (hst.trans h))
    · exact absurd (hst.symm.trans hu) hup

/-- A PADT for the session that comes while it is up breaks the law: it is not looked at. -/
theorem not_bound_ended (f : Frame) (hI : Inv cfg s) (hup : s.stage = .up) (hf : EndsSession cfg f s) :
    ¬ Bound cfg (step cfg s (.frame f)) := by
  intro hB
  have hs : step cfg s (.frame f) = { s with ended := true } := by
    rw [step_frame_session f (hI.state hup), decide_eq_true ⟨hup, hf⟩, Bool.or_true]
  rw [hs] at hB
  have hna : ¬ Answered { s with ended := true } := by
    rintro ⟨⟨loop, hl⟩, -⟩
    exact absurd (hup.symm.trans hl) nofun
  have hdown : pppoeIsUp cfg s.acMacAddr s = false := hB.down rfl hna s.acMacAddr
  have hisup : pppoeIsUp cfg s.acMacAddr s = true := hI.bound.up hup hI.ended
  rw [hdown] at hisup
  cases hisup

theorem inv_step (a : Op) (hI : Inv cfg s) (ha : StepOk cfg s a) : Inv cfg (step cfg s a) := by
  cases a with
  | init => exact inv_init hI
  | start sendOk => exact inv_start sendOk hI
  | frame f => exact inv_frame f hI ha
  | poll timedOut sendOk =>
    by_cases hans : Answered s
    · exact inv_poll_answered timedOut sendOk hI hans (ha hans)
    · exact inv_poll_waiting timedOut sendOk hI hans
  | exit => exact inv_exit hI

/-- A step keeps the law exactly if it is one of those that should. -/
theorem bound_step_iff (a : Op) (hI : Inv cfg s) : Bound cfg (step cfg s a) ↔ StepOk cfg s a := by
  refine ⟨fun hB => ?_, fun ha => (inv_step a hI ha).bound⟩
  cases a with
  | init => trivial
  | start => trivial
  | frame f => exact fun hup hf => not_bound_ended f hI hup hf hB
  | poll timedOut sendOk =>
    intro hans
    change Bound cfg (poll cfg timedOut sendOk s) at hB
    rw [poll_answered timedOut sendOk hans] at hB
    exact (bound_succeed_iff hI hans).mp hB
  | exit => trivial

/-! ## Runs -/

theorem inv_start_of_run (cfg : Config) : Inv cfg {} :=
  inv_of_stage (bound_of_stage nofun rfl) rfl (.inl rfl) fun h => absurd rfl h

/-- **A session is bound to one concentrator** throughout a run exactly if each wait for a confirmation ends
with offer and confirmation of the concentrator that was asked and without a PADT, and no PADT comes later. -/
theorem session_bound_iff (cfg : Config) (ops : List Op) :
    Always (step cfg) (fun s a => Bound cfg (step cfg s a)) {} ops ↔
      Always (step cfg) (StepOk cfg) {} ops :=
  always_iff_of_invariant (fun _ a hI ha => inv_step a hI ha) (fun _ a hI => bound_step_iff a hI) ops
    (inv_start_of_run cfg)

/-- A client at address 9, asking one concentrator, is offered a session by another one, and then by the
first one given session 5: it takes the session to be with the other. A PADT later changes nothing. -/
theorem session_of_another :
    let cfg : Config := { ethAddr := 9 }
    let ops : List Op := [.init, .start true, .frame { src := 1, dst := 9, ethType := .disc, code := .pado },
      .poll false true, .frame { src := 2, dst := 9, ethType := .disc, code := .pado },
      .frame { src := 1, dst := 9, ethType := .disc, code := .pads, session := 5 }, .poll false true]
    let s := run (step cfg) {} ops
    let padt : Frame := { src := 2, dst := 9, ethType := .disc, code := .padt, session := 5 }
    s.padrTo = some 1 ∧ s.confirm = some (1, 5) ∧ s.acMacAddr = 2 ∧ pppoeIsUp cfg 2 s = true ∧
      pppoeIsUp cfg 2 (step cfg s (.frame padt)) = true ∧ ¬ Bound cfg s := by
  refine ⟨rfl, rfl, rfl, rfl, rfl, fun hB => ?_⟩
  exact absurd (hB.same rfl).1 (by decide)

end Watt32.Pppoe
