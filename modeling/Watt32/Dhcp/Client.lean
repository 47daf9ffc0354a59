import Watt32.Lib.Mem
import Watt32.Lib.Run
import Watt32.Timer

/-!
# The DHCP client

`pcdhcp.c`: the globals, the state handlers, `dhcp_fsm`, and what starts and stops it.

* `Client`, `Message`: the globals, and what is sent.
* `dhcpOffer`: the options of `dhcp_in`.
* `stateInit`, …, `stateRebinding`: the state handlers; `dhcpFsm`: the event driver.
* `bootStart`, `bootEnd`, `readConfig`, `release`: the calls of `sock_init` and `sock_exit`.
* `Op`, `step`: all of these as the steps of one machine.
-/

namespace Watt32.Dhcp

abbrev Byte := BitVec 8
abbrev Dword := BitVec 32

/-! ## The data -/

/-- `DHCP_state`. The NULL pointer it is before the first `DHCP_do_boot` counts as INIT: no event is
handled until then. -/
inductive State
  | init | selecting | requesting | bound | renewing | rebinding
  deriving DecidableEq, Repr

/-- `DHCP_Events`. -/
inductive Event
  | offer | sendTimeout | t1Timeout | t2Timeout | ack | nak
  deriving DecidableEq, Repr

/-- `DHCP_MsgTypes` that are sent. -/
inductive MsgType
  | discover | request | decline | release
  deriving DecidableEq, Repr

/-- What goes into a `dhcp_out`. -/
structure Message where
  msgType : MsgType
  xid : Dword
  ciaddr : Dword
  bcast : Bool
  srvIdentifier : Option Dword
  requestedIpAddr : Option Dword
  deriving DecidableEq, Repr

/-- The loop of `DHCP_do_boot`: `last` and `timeout`. -/
structure BootLoop where
  last : Dword
  timeout : Dword
  deriving DecidableEq

/-- The globals, `dhcp_in` with the memory behind it, `dh_xid` of `dhcp_out`, whether `sock`
is open, whether `dhcp_fsm` is a daemon, the loop of `DHCP_do_boot` while it runs, and (ghosts) what has
been sent, and whether an option has made `DHCP_offer` hang or write over the globals. -/
structure Client where
  exchangeId : Dword := 0
  dhcpServer : Dword := 0
  dhcpRenewal : Dword := 0
  dhcpRebind : Dword := 0
  dhcpIplease : Dword := 0
  oldIpAddr : Dword := 0
  bcastFlag : Bool := true
  gotOffer : Bool := false
  configured : Bool := false
  cfgRead : Bool := false
  cfgSaved : Bool := false
  discoverLoops : ℤ := 0
  dhcpIn : ℕ → Byte := fun _ => 0
  outXid : Dword := 0
  state : State := .init
  renewalTimeout : Dword := 0
  rebindTimeout : Dword := 0
  leaseTimeout : Dword := 0
  sendTimeout : Dword := 0
  myIpAddr : Dword := 0
  sock : Bool := false
  daemon : Bool := false
  boot : Option BootLoop := none
  sent : List Message := []
  fault : Bool := false

/-- The configuration: our MAC address, `dhcp_timeout`, `max_retries`, `arp_check_ip` and
`_pktserial`. -/
structure Config where
  ethAddr : List Byte
  dhcpTimeout : Dword := 10
  maxRetries : ℤ := 3
  arpCheckIp : Bool := false
  pktserial : Bool := false

/-- What an event handler takes from outside: the clocks (milliseconds and `time (NULL)`), `Random`, and
whether `_arp_check_own_ip` finds nobody. -/
structure Env where
  msec : Dword := 1
  time : Dword := 1
  random : Dword := 5000
  ownIp : Bool := true

/-! ## Sending -/

/-- `make_boot_header` and `DHCP_SEND`. -/
def dhcpSend (d : Client) (msgType : MsgType) (srvIdentifier requestedIpAddr : Option Dword) : Client :=
  let configured : Bool := d.state = .bound ∨ d.state = .renewing ∨ d.state = .rebinding
  { d with
    outXid := d.exchangeId
    sent := d.sent ++ [{
      msgType := msgType
      xid := d.exchangeId
      ciaddr := if configured then d.myIpAddr else 0
      bcast := d.bcastFlag
      srvIdentifier := srvIdentifier
      requestedIpAddr := requestedIpAddr }] }

/-- `DHCP_discover`. -/
def dhcpDiscover (e : Env) (d : Client) : Client :=
  dhcpSend { d with exchangeId := Timer.setTimeout e.msec 0 } .discover none none

/-- `DHCP_request`. -/
def dhcpRequest (renew : Bool) (d : Client) : Client :=
  if renew then dhcpSend d .request none none
  else dhcpSend d .request (some d.dhcpServer) (some d.myIpAddr)

/-- `DHCP_release_decline`. -/
def dhcpReleaseDecline (e : Env) (msgType : MsgType) (d : Client) : Client :=
  dhcpSend { d with exchangeId := Timer.setTimeout e.msec 0 } msgType (some d.dhcpServer) none

/-! ## Options -/

/-- `sizeof (struct dhcp)`: where `dh_opt` ends. -/
def sizeofDhcp : ℕ := 548

/-- Where the options start: `dh_opt[4]`. -/
def dhOpt : ℕ := 240

/-- `DHCP_OPT_PAD` and `DHCP_OPT_END`, and the options that this model follows. -/
def optPad : Byte := 0
def optEnd : Byte := 255
def optIpAddrLeaseTime : Byte := 51
def optOverload : Byte := 52
def optMsgType : Byte := 53
def optSrvIdentifier : Byte := 54
def optT1Value : Byte := 58
def optT2Value : Byte := 59

/-- `DHCP_OFFER`, `DHCP_ACK` and `DHCP_NAK`. -/
def msgOffer : Byte := 2
def msgAck : Byte := 5
def msgNak : Byte := 6

/-- `intel (*(DWORD*)p)`. -/
def intel (m : ℕ → Byte) (p : ℕ) : Dword := m p ++ m (p + 1) ++ m (p + 2) ++ m (p + 3)

/-- `*(DWORD*)p`. -/
def dword (m : ℕ → Byte) (p : ℕ) : Dword := m (p + 3) ++ m (p + 2) ++ m (p + 1) ++ m p

/-- `DHCP_OPT_OVERLOAD` that calls `dhcp_options_add`, which stops at no `DHCP_OPT_PAD` and copies over
`extra_options` itself. -/
def overloads (m : ℕ → Byte) (opt : ℕ) : Bool :=
  m opt = optOverload ∧ (m (opt + 2) = 1 ∨ m (opt + 2) = 2 ∨ m (opt + 2) = 3)

/-- The switch of `DHCP_offer` at an option. -/
def dhcpOption (m : ℕ → Byte) (d : Client) (opt : ℕ) : Client :=
  if m opt = optMsgType then
    if m (opt + 2) = msgOffer then { d with gotOffer := true } else d
  else if m opt = optSrvIdentifier then { d with dhcpServer := intel m (opt + 2) }
  else if m opt = optIpAddrLeaseTime then { d with dhcpIplease := intel m (opt + 2) }
  else if m opt = optT1Value then { d with dhcpRenewal := intel m (opt + 2) }
  else if m opt = optT2Value then { d with dhcpRebind := intel m (opt + 2) }
  else if overloads m opt then { d with fault := true }
  else d

/-- The loop of `DHCP_offer` from `opt` on, `n` turns at most. -/
def offerLoop (m : ℕ → Byte) : (n : ℕ) → (opt : ℕ) → Client → Client
  | 0, _, d => d
  | n + 1, opt, d =>
    if sizeofDhcp ≤ opt then d
    else if m opt = optPad then offerLoop m n (opt + 1) d
    else if m opt = optEnd then d
    else offerLoop m n (opt + (m (opt + 1)).toNat + 2) (dhcpOption m d opt)

/-- `DHCP_offer (&dhcp_in)`; its result is `got_offer`. -/
def dhcpOffer (d : Client) : Client := offerLoop d.dhcpIn sizeofDhcp dhOpt d

/-! ## Timers -/

/-- The times of `dhcp_set_timers`. -/
structure Timeouts where
  lease : Dword
  renewal : Dword
  rebind : Dword
  deriving DecidableEq, Repr

/-- `(time_t)-1`. -/
def never : Dword := -1

/-- The computation of `dhcp_set_timers`. -/
def timeouts (now iplease renewal rebind : Dword) : Timeouts :=
  let renewalTimeout := if renewal = 0 then never else now + renewal
  { lease := if iplease = 0 then never else now + iplease
    renewal := renewalTimeout
    rebind :=
      if rebind = 0 then never
      else if now + rebind = renewalTimeout then now + rebind + 10
      else now + rebind }

/-- `dhcp_set_timers`. -/
def dhcpSetTimers (e : Env) (d : Client) : Client :=
  let t := timeouts e.time d.dhcpIplease d.dhcpRenewal d.dhcpRebind
  { d with leaseTimeout := t.lease, renewalTimeout := t.renewal, rebindTimeout := t.rebind }

/-- The timers that are armed. -/
def Client.timeouts (d : Client) : Timeouts := ⟨d.leaseTimeout, d.renewalTimeout, d.rebindTimeout⟩

/-! ## The state handlers -/

/-- `DHCP_arp_check`. -/
def dhcpArpCheck (cfg : Config) (e : Env) : Bool := cfg.pktserial ∨ ¬ cfg.arpCheckIp ∨ e.ownIp

/-- To INIT, with no address and the send timer set. -/
def toInit (e : Env) (d : Client) : Client :=
  { d with
    sendTimeout := Timer.setTimeout e.msec e.random
    myIpAddr := 0
    state := .init }

/-- `DHCP_state_BOUND`. -/
def stateBound (d : Client) (event : Event) : Client :=
  if event = .t1Timeout then
    let d := { d with oldIpAddr := d.myIpAddr, gotOffer := false }
    { dhcpRequest true d with state := .renewing }
  else d

/-- `DHCP_state_REQUESTING`. -/
def stateRequesting (cfg : Config) (e : Env) (d : Client) (event : Event) : Client :=
  match event with
  | .sendTimeout =>
    { dhcpRequest false d with sendTimeout := Timer.setTimeout e.msec e.random }
  | .ack =>
    if dhcpArpCheck cfg e = false then
      toInit e (dhcpReleaseDecline e .decline { d with myIpAddr := 0 })
    else
      let d := { dhcpOffer d with configured := true }
      { dhcpSetTimers e d with sendTimeout := 0, state := .bound }
  | .nak => toInit e d
  | _ => d

/-- An ACK in RENEWING or REBINDING. `change_ip_addr` tells the sockets. -/
def renewed (e : Env) (d : Client) : Client := { dhcpOffer (dhcpSetTimers e d) with state := .bound }

/-- `DHCP_state_REBINDING`. -/
def stateRebinding (e : Env) (d : Client) (event : Event) : Client :=
  match event with
  | .ack => renewed e d
  | .nak => toInit e d
  | _ => d

/-- `DHCP_state_RENEWING`. -/
def stateRenewing (e : Env) (d : Client) (event : Event) : Client :=
  match event with
  | .sendTimeout => dhcpRequest true d
  | .t2Timeout => { dhcpRequest true { d with bcastFlag := true } with state := .rebinding }
  | .ack => renewed e d
  | .nak => toInit e d
  | _ => d

/-- `DHCP_state_INIT`. -/
def stateInit (cfg : Config) (e : Env) (d : Client) (event : Event) : Client :=
  if event = .sendTimeout then
    let d := { d with
      discoverLoops := d.discoverLoops + 1
      sendTimeout := Timer.setTimeout e.msec (1000 * cfg.dhcpTimeout) }
    { dhcpDiscover e d with state := .selecting }
  else d

/-- `DHCP_state_SELECTING` once `DHCP_offer` has found an offer. -/
def takeOffer (e : Env) (d : Client) : Client :=
  { d with
    dhcpRenewal := if d.dhcpRenewal = 0 then d.dhcpIplease / 2 else d.dhcpRenewal
    dhcpRebind := if d.dhcpRebind = 0 then d.dhcpIplease * 7 / 8 else d.dhcpRebind
    myIpAddr := intel d.dhcpIn 16
    sendTimeout := Timer.setTimeout e.msec 100
    state := .requesting }

/-- `DHCP_state_SELECTING`. -/
def stateSelecting (cfg : Config) (e : Env) (d : Client) (event : Event) : Client :=
  match event with
  | .offer =>
    if d.gotOffer then d
    else
      let d := dhcpOffer d
      if d.gotOffer then takeOffer e d else d
  | .sendTimeout => stateInit cfg e { d with state := .init } event
  | _ => d

/-- `(*DHCP_state) (event)`. -/
def dispatch (cfg : Config) (e : Env) (d : Client) (event : Event) : Client :=
  match d.state with
  | .init => stateInit cfg e d event
  | .selecting => stateSelecting cfg e d event
  | .requesting => stateRequesting cfg e d event
  | .bound => stateBound d event
  | .renewing => stateRenewing e d event
  | .rebinding => stateRebinding e d event

/-! ## The event driver -/

/-- What a call of `dhcp_fsm` takes from outside: what there is to read, the memory behind `dhcp_in`, and
what holds while each of the four events is handled. -/
structure FsmCall where
  data : Option (List Byte) := none
  behind : ℕ → Byte := fun _ => 0
  packet : Env := {}
  send : Env := {}
  t1 : Env := {}
  t2 : Env := {}

/-- `sock_fastread` into `dhcp_in`. -/
def readPacket (c : FsmCall) (d : Client) (data : List Byte) : Client :=
  let dhcpIn (i : ℕ) : Byte := if i < sizeofDhcp then d.dhcpIn i else c.behind i
  { d with dhcpIn := Mem.put dhcpIn 0 (data.take sizeofDhcp) }

/-- `DHCP_MIN_SIZE` and the other tests of a packet in `dhcp_in`. -/
def packetOk (cfg : Config) (d : Client) (len : ℕ) : Bool :=
  280 ≤ len ∧ d.dhcpIn 0 = 2 ∧ dword d.dhcpIn 4 = d.outXid ∧ Mem.slice d.dhcpIn 28 6 = cfg.ethAddr

/-- `DHCP_is_ack` and `DHCP_is_nack`. -/
def dhcpIs (m : ℕ → Byte) (msg : Byte) : Bool :=
  m dhOpt = optMsgType ∧ m (dhOpt + 1) = 1 ∧ m (dhOpt + 2) = msg

/-- The event that a packet in `dhcp_in` is. -/
def packetEvent (m : ℕ → Byte) : Event :=
  if dhcpIs m msgAck then .ack else if dhcpIs m msgNak then .nak else .offer

/-- The part of `dhcp_fsm` about packets. -/
def receive (cfg : Config) (c : FsmCall) (d : Client) : Client :=
  match c.data with
  | none => d
  | some data =>
    let d := readPacket c d data
    if packetOk cfg d (data.take sizeofDhcp).length then
      dispatch cfg c.packet d (packetEvent d.dhcpIn)
    else d

/-- The part about `send_timeout`. -/
def checkSend (cfg : Config) (c : FsmCall) (d : Client) : Client :=
  if d.sendTimeout = never ∨ Timer.chkTimeout c.send.msec d.sendTimeout then
    dispatch cfg c.send { d with sendTimeout := 0 } .sendTimeout
  else d

/-- The part about `renewal_timeout`. -/
def checkT1 (cfg : Config) (c : FsmCall) (d : Client) : Client :=
  if d.renewalTimeout ≠ 0 ∧ d.renewalTimeout ≤ c.t1.time then
    dispatch cfg c.t1 { d with renewalTimeout := 0 } .t1Timeout
  else d

/-- The part about `rebind_timeout`. -/
def checkT2 (cfg : Config) (c : FsmCall) (d : Client) : Client :=
  if d.rebindTimeout ≠ 0 ∧ d.rebindTimeout ≤ c.t2.time then
    dispatch cfg c.t2 { d with rebindTimeout := 0 } .t2Timeout
  else d

/-- The timers of `dhcp_fsm`. -/
def checkTimers (cfg : Config) (c : FsmCall) (d : Client) : Client :=
  checkT2 cfg c (checkT1 cfg c (checkSend cfg c d))

/-- `dhcp_fsm`. -/
def dhcpFsm (cfg : Config) (c : FsmCall) (d : Client) : Client := checkTimers cfg c (receive cfg c d)

/-! ## Starting and stopping -/

/-- `DHCP_do_boot` up to its loop; `opened` tells whether `dhcp_open` succeeds. -/
def bootStart (cfg : Config) (e : Env) (opened : Bool) (d : Client) : Client :=
  if d.cfgRead then d
  else if d.sock = false ∧ opened = false then d
  else
    let renewing : Bool := d.state = .renewing ∨ d.state = .rebinding
    { d with
      sock := true
      myIpAddr := if renewing then d.myIpAddr else 0
      discoverLoops := 0
      sendTimeout := never
      state := if renewing then d.state else .init
      boot := some ⟨e.time, e.time + cfg.dhcpTimeout * BitVec.ofInt 32 cfg.maxRetries + 1⟩ }

/-- `DHCP_do_boot` after its loop: whether `write_config` and `DAEMON_ADD` succeed. -/
def bootEnd (written added : Bool) (d : Client) : Client :=
  let d := { d with gotOffer := false, boot := none }
  if d.myIpAddr ≠ 0 then { d with cfgSaved := written, daemon := d.daemon || added } else d

/-- The loop of `DHCP_do_boot` goes on after a turn at `now`. -/
def bootGoesOn (cfg : Config) (b : BootLoop) (now : Dword) (d : Client) : Bool :=
  d.state ≠ .bound ∧ d.discoverLoops < cfg.maxRetries ∧ ¬ (b.last ≠ now ∧ b.timeout < now)

/-- One turn of the loop, and what follows it. -/
def bootTurn (cfg : Config) (c : FsmCall) (now : Dword) (written added : Bool) (b : BootLoop)
    (d : Client) : Client :=
  let d := dhcpFsm cfg c d
  if bootGoesOn cfg b now d then { d with boot := some { b with last := now } }
  else bootEnd written added d

/-- `DHCP_release`. -/
def release (e : Env) (force : Bool) (d : Client) : Client :=
  let saved : Bool := d.cfgSaved ∧ d.leaseTimeout ≠ 0 ∧ 10 < d.leaseTimeout - e.time
  let d := if force ∨ d.configured ∧ ¬ saved then dhcpReleaseDecline e .release d else d
  { d with daemon := false, sock := false }

/-- The transient configuration, as reading it leaves it. -/
structure Transient where
  iplease : Dword
  renewal : Dword
  rebind : Dword
  myIp : Dword
  server : Dword

/-- `eval_timers`: the client and its result. -/
def evalTimers (cfg : Config) (e : Env) (t : Transient) (d : Client) : Client × Bool :=
  let now := e.time
  let iplease := if t.iplease < now then 10 else t.iplease - now
  let d := { d with
    dhcpIplease := iplease
    dhcpRenewal := if t.renewal < now then iplease / 2 else t.renewal - now
    dhcpRebind := if t.rebind < now then iplease * 7 / 8 else t.rebind - now
    discoverLoops := 0 }
  if now < t.renewal then ({ d with state := .bound }, true)
  else if now < t.rebind then (dispatch cfg e { d with state := .bound } .t1Timeout, false)
  else if now < t.iplease then (dispatch cfg e { d with state := .renewing } .t2Timeout, false)
  else (d, false)

/-- `DHCP_read_config`: `file` is what it finds, if it does. -/
def readConfig (cfg : Config) (e : Env) (file : Option Transient) (opened : Bool) (d : Client) : Client :=
  let d := { d with cfgRead := false }
  match file with
  | none => d
  | some t =>
    let d := { d with myIpAddr := t.myIp, dhcpServer := t.server, sock := opened }
    if opened = false then d
    else
      let r := evalTimers cfg e t d
      if r.2 then dhcpSetTimers e { r.1 with cfgRead := true } else r.1

/-! ## The machine -/

/-- What happens: the parser of the configuration sets BCAST and HOST, `DHCP_read_config`,
`DHCP_do_boot` starts, a turn of its loop, the daemon runs, `DHCP_release`. -/
inductive Op
  | config (bcastFlag : Bool) (host : Option Dword)
  | readConfig (e : Env) (file : Option Transient) (opened : Bool)
  | boot (e : Env) (opened : Bool)
  | turn (c : FsmCall) (now : Dword) (written added : Bool)
  | daemon (c : FsmCall)
  | release (e : Env) (force : Bool)

/-- One step. `DHCP_do_boot` does not return before its loop ends. -/
def step (cfg : Config) (d : Client) (op : Op) : Client :=
  if d.fault then d
  else
    match op, d.boot with
    | .config bcastFlag host, none => { d with bcastFlag := bcastFlag, dhcpServer := host.getD d.dhcpServer }
    | .readConfig e file opened, none => readConfig cfg e file opened d
    | .boot e opened, none => bootStart cfg e opened d
    | .release e force, none => release e force d
    | .turn c now written added, some b => bootTurn cfg c now written added b d
    | .daemon c, _ => if d.daemon then dhcpFsm cfg c d else d
    | _, _ => d

/-- The call of `dhcp_fsm` in a step, if there is one. -/
def fsmCall (d : Client) (op : Op) : Option FsmCall :=
  if d.fault then none
  else
    match op, d.boot with
    | .turn c _ _ _, some _ => some c
    | .daemon c, _ => if d.daemon then some c else none
    | _, _ => none

/-! ## Calls of `dhcp_fsm` -/

/-- The event that `dhcp_fsm` takes a packet for, when it takes it. -/
def packetIn (cfg : Config) (c : FsmCall) (d : Client) (data : List Byte) : Option Event :=
  let d := readPacket c d data
  if packetOk cfg d (data.take sizeofDhcp).length then some (packetEvent d.dhcpIn) else none

/-- The event of the packet of a call, if there is one. -/
def eventIn (cfg : Config) (c : FsmCall) (d : Client) : Option Event := c.data.bind (packetIn cfg c d)

/-- The client once the packet is read. -/
def readIn (c : FsmCall) (d : Client) : Client := (c.data.map (readPacket c d)).getD d

variable {cfg : Config} {c : FsmCall} {d : Client} {data : List Byte} {op : Op} {event : Event}

theorem receive_packet (hdata : c.data = some data) (hin : packetIn cfg c d data = some event) :
    receive cfg c d = dispatch cfg c.packet (readPacket c d data) event := by
  have hok : packetOk cfg (readPacket c d data) (data.take sizeofDhcp).length = true ∧
      packetEvent (readPacket c d data).dhcpIn = event := by
    simpa [packetIn] using hin
  simp only [receive, hdata]
  rw [if_pos hok.1, hok.2]

theorem receive_some (h : eventIn cfg c d = some event) :
    receive cfg c d = dispatch cfg c.packet (readIn c d) event := by
  obtain ⟨data, hdata, hin⟩ := Option.bind_eq_some_iff.mp h
  rw [receive_packet hdata hin, readIn, hdata, Option.map_some, Option.getD_some]

theorem receive_none (h : eventIn cfg c d = none) : receive cfg c d = readIn c d := by
  unfold receive readIn
  cases hdata : c.data with
  | none => rfl
  | some data =>
    simp only [eventIn, hdata, Option.bind_some, packetIn] at h
    split_ifs at h with hok
    simp only [Option.map_some, Option.getD_some]
    rw [if_neg hok]

/-- What a packet can be. -/
theorem eventIn_cases (cfg : Config) (c : FsmCall) (d : Client) : eventIn cfg c d = none ∨
    eventIn cfg c d = some .ack ∨ eventIn cfg c d = some .nak ∨ eventIn cfg c d = some .offer := by
  unfold eventIn
  cases c.data with
  | none => exact .inl rfl
  | some data =>
    simp only [Option.bind_some, packetIn, packetEvent]
    split_ifs <;> simp

theorem readIn_shape (c : FsmCall) (d : Client) : ∃ dhcpIn, readIn c d = { d with dhcpIn := dhcpIn } := by
  unfold readIn
  cases c.data with
  | none => exact ⟨d.dhcpIn, rfl⟩
  | some data => exact ⟨_, rfl⟩

theorem fsmCall_noFault (h : fsmCall d op = some c) : d.fault = false := by
  by_contra hf
  unfold fsmCall at h
  rw [if_pos (by simpa using hf)] at h
  cases h

theorem fsmCall_eq (h : fsmCall d op = some c) :
    op = .daemon c ∨ ∃ now written added, op = .turn c now written added := by
  unfold fsmCall at h
  split at h
  · cases h
  · split at h
    · cases h
      exact .inr ⟨_, _, _, rfl⟩
    · split_ifs at h
      cases h
      exact .inl rfl
    · cases h

/-- The call is all there is to the step, or the loop of `DHCP_do_boot` goes on or ends after it. -/
theorem step_fsmCall (cfg : Config) (h : fsmCall d op = some c) : step cfg d op = dhcpFsm cfg c d ∨
    ∃ now written added b, step cfg d op = bootTurn cfg c now written added b d := by
  have hf : ¬ d.fault = true := by simp [fsmCall_noFault h]
  unfold fsmCall at h
  unfold step
  rw [if_neg hf] at h ⊢
  rcases hb : d.boot with _ | b <;> rw [hb] at h <;> cases op <;> simp only at h ⊢
  case none.daemon | some.daemon =>
    split_ifs at h with hd
    cases h
    exact .inl (if_pos hd)
  all_goals cases h
  exact .inr ⟨_, _, _, _, rfl⟩

theorem fsmCall_daemon (hf : d.fault = false) (hd : d.daemon = true) (c : FsmCall) :
    fsmCall d (.daemon c) = some c := by
  unfold fsmCall
  rw [if_neg (by simp [hf])]
  exact if_pos hd

end Watt32.Dhcp
