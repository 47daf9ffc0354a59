import Watt32.Lib.Mem

/-!
# The two automata of PPP

`ppp.c`: LCP opens the link and IPCP the network over it. Each is an automaton, and they send events to one
another from their actions.

* `pppDispatch`: the table; `dispatchAction`, `changePhase`, `sendEvent`: the actions and the events they send.
* `validateRequest`, `processRcx`, `stdNegotiation`, `pppInput`, `checkTimeouts`, `pppStart`: the code.
-/

namespace Watt32.Ppp

open Mem

abbrev Byte := BitVec 8
abbrev Word := BitVec 16
abbrev Dword := BitVec 32

/-! ## The data -/

/-- `enum ppp_phase`. -/
inductive PppPhase
  | phDead | phEstablish | phAuthenticate | phNetwork | phTerminate
  deriving DecidableEq

/-- `enum ppp_event`. -/
inductive PppEvent
  | evUp | evDown | evOpen | evClose | evTOp | evTOm | evRCRp | evRCRm | evRCA | evRCN | evRTR | evRTA | evRUC
  | evRXJp | evRXJm | evRXR
  deriving DecidableEq

/-- `enum xcp_state`. -/
inductive XcpState
  | stInitial | stStarting | stClosed | stStopped | stClosing | stStopping | stReqSent | stAckRcvd | stAckSent
  | stOpened
  deriving DecidableEq

/-- `enum xcp_action`. -/
inductive XcpAction
  | acIrc | acScr | acTls | acTlf | acStr | acSta | acSca | acScn | acScj | acTld | acTlu | acZrc | acSer
  deriving DecidableEq

/-- `enum parse_state`. -/
inductive ParseState
  | psOK | psNak | psRej | psBad
  deriving DecidableEq

/-- `XCP_LCP` and `XCP_IPCP`. -/
inductive Xcp
  | lcp | ipcp
  deriving DecidableEq

/-- `ppp_dispatch`: the next state, `none` for `stNoChange`, and the actions without `acNull`. -/
def pppDispatch : XcpState → PppEvent → Option XcpState × List XcpAction
  | .stInitial, .evUp => (some .stClosed, [])
  | .stInitial, .evOpen => (some .stStarting, [.acTls])
  | .stInitial, .evClose => (some .stClosed, [])
  | .stStarting, .evUp => (some .stReqSent, [.acIrc, .acScr])
  | .stStarting, .evOpen => (some .stStarting, [])
  | .stStarting, .evClose => (some .stInitial, [.acTlf])
  | .stClosed, .evDown => (some .stInitial, [])
  | .stClosed, .evOpen => (some .stReqSent, [.acIrc, .acScr])
  | .stClosed, .evClose => (some .stClosed, [])
  | .stClosed, .evRCRp => (some .stClosed, [.acSta])
  | .stClosed, .evRCRm => (some .stClosed, [.acSta])
  | .stClosed, .evRCA => (some .stClosed, [.acSta])
  | .stClosed, .evRCN => (some .stClosed, [.acSta])
  | .stClosed, .evRTR => (some .stClosed, [.acSta])
  | .stClosed, .evRTA => (some .stClosed, [])
  | .stClosed, .evRUC => (some .stClosed, [.acScj])
  | .stClosed, .evRXJp => (some .stClosed, [])
  | .stClosed, .evRXJm => (some .stClosed, [.acTlf])
  | .stClosed, .evRXR => (some .stClosed, [])
  | .stStopped, .evDown => (some .stStarting, [.acTls])
  | .stStopped, .evOpen => (some .stStopped, [])
  | .stStopped, .evClose => (some .stClosed, [])
  | .stStopped, .evRCRp => (some .stAckSent, [.acIrc, .acScr, .acSca])
  | .stStopped, .evRCRm => (some .stReqSent, [.acIrc, .acScr, .acScn])
  | .stStopped, .evRCA => (some .stStopped, [.acSta])
  | .stStopped, .evRCN => (some .stStopped, [.acSta])
  | .stStopped, .evRTR => (some .stStopped, [.acSta])
  | .stStopped, .evRTA => (some .stStopped, [])
  | .stStopped, .evRUC => (some .stStopped, [.acScj])
  | .stStopped, .evRXJp => (some .stStopped, [])
  | .stStopped, .evRXJm => (some .stStopped, [.acTlf])
  | .stStopped, .evRXR => (some .stStopped, [])
  | .stClosing, .evDown => (some .stInitial, [])
  | .stClosing, .evOpen => (some .stStopping, [])
  | .stClosing, .evClose => (some .stClosing, [])
  | .stClosing, .evTOp => (some .stClosing, [.acStr])
  | .stClosing, .evTOm => (some .stClosed, [.acTlf])
  | .stClosing, .evRCRp => (some .stClosing, [])
  | .stClosing, .evRCRm => (some .stClosing, [])
  | .stClosing, .evRCA => (some .stClosing, [])
  | .stClosing, .evRCN => (some .stClosing, [])
  | .stClosing, .evRTR => (some .stClosing, [.acSta])
  | .stClosing, .evRTA => (some .stClosed, [.acTlf])
  | .stClosing, .evRUC => (some .stClosing, [.acScj])
  | .stClosing, .evRXJp => (some .stClosing, [])
  | .stClosing, .evRXJm => (some .stClosed, [.acTlf])
  | .stClosing, .evRXR => (some .stClosing, [])
  | .stStopping, .evDown => (some .stInitial, [])
  | .stStopping, .evOpen => (some .stStopping, [])
  | .stStopping, .evClose => (some .stClosing, [])
  | .stStopping, .evTOp => (some .stStopping, [.acStr])
  | .stStopping, .evTOm => (some .stStopped, [.acTlf])
  | .stStopping, .evRCRp => (some .stStopping, [])
  | .stStopping, .evRCRm => (some .stStopping, [])
  | .stStopping, .evRCA => (some .stStopping, [])
  | .stStopping, .evRCN => (some .stStopping, [])
  | .stStopping, .evRTR => (some .stStopping, [.acSta])
  | .stStopping, .evRTA => (some .stStopped, [.acTlf])
  | .stStopping, .evRUC => (some .stStopping, [.acScj])
  | .stStopping, .evRXJp => (some .stStopping, [])
  | .stStopping, .evRXJm => (some .stStopped, [.acTlf])
  | .stStopping, .evRXR => (some .stStopping, [])
  | .stReqSent, .evDown => (some .stStarting, [])
  | .stReqSent, .evOpen => (some .stReqSent, [])
  | .stReqSent, .evClose => (some .stClosing, [.acIrc, .acStr])
  | .stReqSent, .evTOp => (some .stReqSent, [.acScr])
  | .stReqSent, .evTOm => (some .stStopped, [.acTlf])
  | .stReqSent, .evRCRp => (some .stAckSent, [.acSca])
  | .stReqSent, .evRCRm => (some .stReqSent, [.acScn])
  | .stReqSent, .evRCA => (some .stAckRcvd, [.acIrc])
  | .stReqSent, .evRCN => (some .stReqSent, [.acIrc, .acScr])
  | .stReqSent, .evRTR => (some .stReqSent, [.acSta])
  | .stReqSent, .evRTA => (some .stReqSent, [])
  | .stReqSent, .evRUC => (some .stReqSent, [.acScj])
  | .stReqSent, .evRXJp => (some .stReqSent, [])
  | .stReqSent, .evRXJm => (some .stStopped, [.acTlf])
  | .stReqSent, .evRXR => (some .stReqSent, [])
  | .stAckRcvd, .evDown => (some .stStarting, [])
  | .stAckRcvd, .evOpen => (some .stAckRcvd, [])
  | .stAckRcvd, .evClose => (some .stClosing, [.acIrc, .acStr])
  | .stAckRcvd, .evTOp => (some .stReqSent, [.acScr])
  | .stAckRcvd, .evTOm => (some .stStopped, [.acTlf])
  | .stAckRcvd, .evRCRp => (some .stOpened, [.acSca, .acTlu])
  | .stAckRcvd, .evRCRm => (some .stAckRcvd, [.acScn])
  | .stAckRcvd, .evRCA => (some .stReqSent, [.acScr])
  | .stAckRcvd, .evRCN => (some .stReqSent, [.acScr])
  | .stAckRcvd, .evRTR => (some .stReqSent, [.acSta])
  | .stAckRcvd, .evRTA => (some .stReqSent, [])
  | .stAckRcvd, .evRUC => (some .stAckRcvd, [.acScj])
  | .stAckRcvd, .evRXJp => (some .stReqSent, [])
  | .stAckRcvd, .evRXJm => (some .stStopped, [.acTlf])
  | .stAckRcvd, .evRXR => (some .stAckRcvd, [])
  | .stAckSent, .evDown => (some .stStarting, [])
  | .stAckSent, .evOpen => (some .stAckSent, [])
  | .stAckSent, .evClose => (some .stClosing, [.acIrc, .acStr])
  | .stAckSent, .evTOp => (some .stAckSent, [.acScr])
  | .stAckSent, .evTOm => (some .stStopped, [.acTlf])
  | .stAckSent, .evRCRp => (some .stAckSent, [.acSca])
  | .stAckSent, .evRCRm => (some .stReqSent, [.acScn])
  | .stAckSent, .evRCA => (some .stOpened, [.acIrc, .acTlu])
  | .stAckSent, .evRCN => (some .stAckSent, [.acIrc, .acScr])
  | .stAckSent, .evRTR => (some .stReqSent, [.acSta])
  | .stAckSent, .evRTA => (some .stAckSent, [])
  | .stAckSent, .evRUC => (some .stAckSent, [.acScj])
  | .stAckSent, .evRXJp => (some .stAckSent, [])
  | .stAckSent, .evRXJm => (some .stStopped, [.acTlf])
  | .stAckSent, .evRXR => (some .stAckSent, [])
  | .stOpened, .evDown => (some .stStarting, [.acTld])
  | .stOpened, .evOpen => (some .stOpened, [])
  | .stOpened, .evClose => (some .stClosing, [.acTld, .acIrc, .acStr])
  | .stOpened, .evRCRp => (some .stAckSent, [.acTld, .acScr, .acSca])
  | .stOpened, .evRCRm => (some .stReqSent, [.acTld, .acScr, .acScn])
  | .stOpened, .evRCA => (some .stReqSent, [.acTld, .acScr])
  | .stOpened, .evRCN => (some .stReqSent, [.acTld, .acScr])
  | .stOpened, .evRTR => (some .stStopping, [.acTld, .acZrc, .acSta])
  | .stOpened, .evRTA => (some .stReqSent, [.acTld, .acScr])
  | .stOpened, .evRUC => (some .stOpened, [.acScj])
  | .stOpened, .evRXJp => (some .stOpened, [])
  | .stOpened, .evRXJm => (some .stStopping, [.acTld, .acIrc, .acStr])
  | .stOpened, .evRXR => (some .stOpened, [.acSer])
  | _, _ => (none, [])

/-- `CODE_CONF_REQ` and so on. -/
def codeConfReq : Byte := 1
def codeConfAck : Byte := 2
def codeConfNak : Byte := 3
def codeConfRej : Byte := 4
def codeTermReq : Byte := 5
def codeTermAck : Byte := 6
def codeCodeRej : Byte := 7
def codeProtoRej : Byte := 8
def codeEchoReq : Byte := 9
def codeEchoRep : Byte := 10
def codeDiscardReq : Byte := 11

/-- `PPP_IP`, and `xcp->proto`: `PPP_LCP`, `PPP_IPCP`. -/
def pppIp : Word := 0x0021
def Xcp.proto : Xcp → Word
  | .lcp => 0xc021
  | .ipcp => 0x8021

/-- `struct xcp_type`; the functions are `ipcp_addr_req` and `ipcp_addr_nak`, or none. -/
structure XcpType where
  type : Byte
  flag : Bool
  minlen : ℕ
  maxlen : ℕ
  defaultValue : Dword
  validateReq : Bool
  validateNak : Bool

/-- `lcp_types` and `ipcp_types`. -/
def Xcp.types : Xcp → List XcpType
  | .lcp => []
  | .ipcp =>
    [{ type := 3, flag := true, minlen := 6, maxlen := 6, defaultValue := 0, validateReq := true,
       validateNak := true }]

/-- `struct option_state`. -/
structure OptionState where
  myValue : Dword := 0
  peerValue : Dword := 0
  unusable : Bool := false

/-- `struct ppp_xcp`. -/
structure PppXcp where
  state : XcpState := .stInitial
  restart : ℤ := 0
  timeout : ℕ := 0
  naksSent : ℕ := 0
  opts : ℕ → OptionState := fun _ => {}
  ident : Byte := 0

/-- What `ppp_write` was given, by an action that answers a packet or by another one. -/
structure Sent where
  reply : Bool
  bytes : List Byte
  deriving DecidableEq

/-- What IPCP set, and the state of LCP then. -/
structure Addresses where
  myIpAddr : Dword
  gateway : Dword
  lcp : XcpState
  deriving DecidableEq

/-- `struct ppp_state`, how often the clock was read, and (ghosts) what was sent in this step and what IPCP set.
`bp` is a place in `inbuffer`, `up` one in `outbuffer`. -/
structure PppState where
  phase : PppPhase := .phDead
  parseState : ParseState := .psOK
  lcp : PppXcp := {}
  ipcp : PppXcp := {}
  timeoutPeriod : ℕ := 0
  mlen : ℤ := 0
  mymagic : Dword := 0
  bp : ℕ := 0
  up : ℕ := 0
  inbuffer : ℕ → Byte := fun _ => 0
  outbuffer : ℕ → Byte := fun _ => 0
  readings : ℕ := 0
  sent : List Sent := []
  set : List Addresses := []

namespace PppState

/-- `state->xcps[i]`. -/
def xcp (s : PppState) : Xcp → PppXcp
  | .lcp => s.lcp
  | .ipcp => s.ipcp

/-- Change one of the automata. -/
def modify (s : PppState) (x : Xcp) (f : PppXcp → PppXcp) : PppState :=
  match x with
  | .lcp => { s with lcp := f s.lcp }
  | .ipcp => { s with ipcp := f s.ipcp }

end PppState

/-- The bytes of a word and of a double word, the high one first. -/
def be16 (w : Word) : List Byte := [(w >>> 8).setWidth 8, w.setWidth 8]
def be32 (d : Dword) : List Byte :=
  [(d >>> 24).setWidth 8, (d >>> 16).setWidth 8, (d >>> 8).setWidth 8, d.setWidth 8]

/-- Read them. -/
def get16 (m : ℕ → Byte) (i : ℕ) : Word := m i ++ m (i + 1)
def get32 (m : ℕ → Byte) (i : ℕ) : Dword := m i ++ m (i + 1) ++ m (i + 2) ++ m (i + 3)

/-- `intel`. -/
def intel (d : Dword) : Dword := d.setWidth 8 ++ (d >>> 8).setWidth 8 ++ (d >>> 16).setWidth 8 ++
  (d >>> 24).setWidth 8

/-! ## Building packets -/

/-- `ppp_write`. -/
def pppWrite (reply : Bool) (buf : ℕ → Byte) (len : ℕ) (s : PppState) : PppState :=
  { s with sent := s.sent ++ [⟨reply, slice buf 0 len⟩] }

/-- A packet without data. -/
def header (x : Xcp) (code ident : Byte) : List Byte := be16 x.proto ++ [code, ident, 0, 4]

/-- `code_id`. -/
def codeId (x : Xcp) (code : Byte) (s : PppState) : PppState :=
  let s := s.modify x fun p => { p with ident := p.ident + 1 }
  { s with outbuffer := put s.outbuffer 0 (header x code (s.xcp x).ident) }

/-- `code_reply`. -/
def codeReply (x : Xcp) (code : Byte) (s : PppState) : PppState :=
  { s with outbuffer := put s.outbuffer 0 (header x code (s.inbuffer 3)) }

/-- Write a length. -/
def putLength (m : ℕ → Byte) (i len : ℕ) : ℕ → Byte := put m i (be16 (BitVec.ofNat 16 len))

/-- The bytes of an option of a Configure-Request that `create_request` writes. -/
def optionBytes (t : XcpType) (v : Dword) : List Byte :=
  [t.type, BitVec.ofNat 8 t.minlen] ++
    (if 2 < t.minlen then [(v >>> (8 * (t.minlen - 3))).setWidth 8] else []) ++
    (if 3 < t.minlen then [(v >>> (8 * (t.minlen - 4))).setWidth 8] else []) ++
    (if 4 < t.minlen then [(v >>> (8 * (t.minlen - 5))).setWidth 8] else []) ++
    (if 5 < t.minlen then [v.setWidth 8] else [])

/-- The loop of `create_request`, from the `i`-th type on. -/
def createOptions (os : ℕ → OptionState) : List XcpType → ℕ → (ℕ → Byte) × ℕ → (ℕ → Byte) × ℕ
  | [], _, r => r
  | t :: ts, i, (out, bp) =>
    if (os i).unusable ∨ (t.flag = false ∧ (os i).myValue = t.defaultValue) then createOptions os ts (i + 1) (out, bp)
    else createOptions os ts (i + 1) (put out bp (optionBytes t (os i).myValue), bp + t.minlen)

/-- `create_request`. -/
def createRequest (x : Xcp) (s : PppState) : PppState :=
  let s := codeId x codeConfReq s
  let r := createOptions (s.xcp x).opts x.types 0 (s.outbuffer, 6)
  { s with outbuffer := putLength r.1 4 (r.2 - 6 + 4), up := r.2 }

/-- The place of a type among the options that are supported, and the type. -/
def findType (x : Xcp) (type : Byte) : Option (XcpType × ℕ) := x.types.zipIdx.find? fun p => p.1.type = type

/-- The value of an option, at `bp`. -/
def optionValue (m : ℕ → Byte) (bp : ℕ) : Dword :=
  let step (v : Dword) (k : ℕ) : Dword :=
    if k < (m (bp + 1)).toNat then (v <<< 8) + (m (bp + k)).setWidth 32 else v
  step (step (step ((m (bp + 2)).setWidth 32) 3) 4) 5

/-- The loop of `copy_peer_values`, `n` turns at most. An option of length 0 would keep it for ever: there is
none in a request that `validate_request` likes. -/
def copyOptions (x : Xcp) (m : ℕ → Byte) : (n : ℕ) → (rlen bp : ℕ) → (ℕ → OptionState) → (ℕ → OptionState)
  | 0, _, _, os => os
  | n + 1, rlen, bp, os =>
    if rlen = 0 then os
    else
      let i := ((findType x (m bp)).map (·.2)).getD x.types.length
      copyOptions x m n (rlen - (m (bp + 1)).toNat) (bp + (m (bp + 1)).toNat)
        (Function.update os i { os i with peerValue := optionValue m bp })

/-- `copy_peer_values`. -/
def copyPeerValues (x : Xcp) (s : PppState) : PppState :=
  s.modify x fun p =>
    let os := fun i => { p.opts i with peerValue := (x.types[i]?.map (·.defaultValue)).getD (p.opts i).peerValue }
    { p with opts := copyOptions x s.inbuffer s.mlen.toNat s.mlen.toNat s.bp os }

/-! ## The automata -/

/-- `INITIAL_TIMEOUT`, `MAX_TERMINATE`, `MAX_CONFIGURE`, `MAX_FAILURE`, `MAX_TIMEOUT`. -/
def initialTimeout : ℕ := 2
def maxTerminate : ℤ := 2
def maxConfigure : ℤ := 10
def maxFailure : ℕ := 5
def maxTimeout : ℕ := 8

/-- The events that a change of the phase brings with it. -/
def phaseEvents (send : Xcp → PppEvent → PppState → Option PppState) (phase : PppPhase) (s : PppState) :
    Option PppState :=
  match phase with
  | .phEstablish => if s.phase = .phDead then send .lcp .evUp s else some s
  | .phNetwork => if s.phase = .phAuthenticate then send .ipcp .evUp s else some s
  | .phTerminate => send .ipcp .evDown s
  | .phAuthenticate | .phDead => some s

/-- The phase is set after them. -/
def enterPhase (send : Xcp → PppEvent → PppState → Option PppState) (phase : PppPhase) (s : PppState) :
    Option PppState :=
  (phaseEvents send phase s).map fun s => { s with phase := phase }

/-- `change_phase`: there is no authentication yet. -/
def changePhase (send : Xcp → PppEvent → PppState → Option PppState) (phase : PppPhase) (s : PppState) :
    Option PppState :=
  (enterPhase send phase s).bind fun s =>
    if phase = .phAuthenticate then enterPhase send .phNetwork s else some s

/-- The restart timer is set. `clock` is what `time` returns, reading by reading. -/
def startTimer (clock : ℕ → ℕ) (x : Xcp) (s : PppState) : PppState :=
  { s.modify x fun p => { p with timeout := clock s.readings + s.timeoutPeriod } with
    readings := s.readings + 1 }

/-- IPCP is up. -/
def setAddresses (s : PppState) : PppState :=
  { s with set := s.set ++ [⟨intel (s.ipcp.opts 0).myValue, intel (s.ipcp.opts 0).peerValue, s.lcp.state⟩] }

/-- `dispatch_action`. `send` is `send_event`. -/
def dispatchAction (clock : ℕ → ℕ) (send : Xcp → PppEvent → PppState → Option PppState) (x : Xcp) (s : PppState) :
    XcpAction → Option PppState
  | .acIrc =>
    let restart := if s.phase = .phTerminate then maxTerminate else maxConfigure
    some { s.modify x fun p => { p with restart := restart } with timeoutPeriod := initialTimeout }
  | .acScr =>
    let s := if 0 < (s.xcp x).restart then
        let s := createRequest x (s.modify x fun p => { p with restart := p.restart - 1 })
        pppWrite false s.outbuffer s.up s
      else s
    some (startTimer clock x s)
  | .acTls => if x = .ipcp then send .lcp .evOpen s else changePhase send .phEstablish s
  | .acTlf => if x = .ipcp then send .lcp .evClose s else changePhase send .phTerminate s
  | .acStr =>
    let s := if 0 < (s.xcp x).restart then
        let s := codeId x codeTermReq (s.modify x fun p => { p with restart := p.restart - 1 })
        pppWrite false s.outbuffer 6 s
      else s
    some (startTimer clock x s)
  | .acSta =>
    let s := codeReply x codeTermAck s
    some (pppWrite true s.outbuffer 6 s)
  | .acSca =>
    let s := copyPeerValues x s
    let s := { s with inbuffer := Function.update s.inbuffer 2 codeConfAck }
    some (pppWrite true s.inbuffer (s.mlen + s.bp).toNat s)
  | .acScn =>
    let out := if maxFailure ≤ (s.xcp x).naksSent then Function.update s.outbuffer 4 codeConfRej else s.outbuffer
    let s := { s.modify x fun p => { p with naksSent := p.naksSent + 1 } with outbuffer := out }
    some (pppWrite true s.outbuffer s.up s)
  | .acScj => some (pppWrite true s.outbuffer s.up s)
  | .acTld => if x = .lcp then changePhase send .phTerminate s else some s
  | .acTlu =>
    (if x = .lcp then changePhase send .phAuthenticate s else some (setAddresses s)).map fun s =>
      s.modify x fun p => { p with restart := maxConfigure, timeout := 0 }
  | .acZrc => some { s.modify x fun p => { p with restart := 0 } with timeoutPeriod := initialTimeout }
  | .acSer =>
    let s := { s with inbuffer := put (Function.update s.inbuffer 2 codeEchoRep) 6 (be32 s.mymagic) }
    some (pppWrite true s.inbuffer (s.mlen + s.bp).toNat s)

/-- The state that an event leads to, before the actions. -/
def enterState (x : Xcp) (next : Option XcpState) (s : PppState) : PppState :=
  s.modify x fun p => { p with state := next.getD p.state }

/-- `send_event`, with at most `n` events inside one another. -/
def sendEvent (clock : ℕ → ℕ) : (n : ℕ) → Xcp → PppEvent → PppState → Option PppState
  | 0, _, _, _ => none
  | n + 1, x, e, s =>
    let dp := pppDispatch (s.xcp x).state e
    dp.2.foldlM (dispatchAction clock (sendEvent clock n) x) (enterState x dp.1 s)

/-! ## Negotiation -/

/-- The options of a packet, and whether the loop over them breaks off at the end: `n` turns at most. -/
def options (m : ℕ → Byte) : (n : ℕ) → (rlen bp : ℕ) → List ℕ × Bool
  | 0, _, _ => ([], false)
  | n + 1, rlen, bp =>
    if rlen = 0 then ([], false)
    else if rlen < 2 ∨ rlen < (m (bp + 1)).toNat then ([], true)
    else
      let i := max 2 (m (bp + 1)).toNat
      let r := options m n (rlen - i) (bp + i)
      (bp :: r.1, r.2)

/-- The options of the packet at hand. -/
def PppState.options (s : PppState) : List ℕ × Bool := Ppp.options s.inbuffer s.mlen.toNat s.mlen.toNat s.bp

/-- `set_reject`. -/
def setReject (x : Xcp) (bp : ℕ) (s : PppState) : PppState :=
  if s.parseState = .psBad then s
  else
    let s := if s.parseState ≠ .psRej then { codeReply x codeConfRej s with up := 6, parseState := .psRej } else s
    let i := max 2 (s.inbuffer (bp + 1)).toNat
    { s with
      outbuffer := Function.update (blit s.outbuffer s.up s.inbuffer bp i) (s.up + 1) (BitVec.ofNat 8 i)
      up := s.up + i }

/-- `set_nak`, with the bytes after the first two of the option. -/
def setNak (x : Xcp) (type : Byte) (data : List Byte) (s : PppState) : PppState :=
  if s.parseState = .psBad ∨ s.parseState = .psRej then s
  else
    let s := if s.parseState ≠ .psNak then { codeReply x codeConfNak s with up := 6, parseState := .psNak } else s
    { s with
      outbuffer := put s.outbuffer s.up ([type, BitVec.ofNat 8 (data.length + 2)] ++ data)
      up := s.up + (data.length + 2) }

/-- `remote_ip_base` and `remote_ip_mask`. -/
def remoteIpBase : Dword := 0x0A000000
def remoteIpMask : Dword := 0xFF000000

/-- `ipcp_addr_req`. -/
def ipcpAddrReq (x : Xcp) (t : XcpType) (i bp : ℕ) (s : PppState) : PppState :=
  let addr := get32 s.inbuffer bp
  if addr ≠ ((s.xcp x).opts i).myValue ∧ addr &&& remoteIpMask = remoteIpBase then s
  else setNak x t.type (be32 ((s.xcp x).opts i).peerValue) s

/-- One turn of `validate_request`. -/
def checkOption (x : Xcp) (s : PppState) (bp : ℕ) : PppState :=
  match findType x (s.inbuffer bp) with
  | none => setReject x bp s
  | some (t, i) =>
    if (s.inbuffer (bp + 1)).toNat < t.minlen then setNak x t.type (slice s.inbuffer (bp + 2) (t.minlen - 2)) s
    else if t.maxlen < (s.inbuffer (bp + 1)).toNat then
      setNak x t.type (slice s.inbuffer (bp + 2) (t.maxlen - 2)) s
    else if t.validateReq then ipcpAddrReq x t i (bp + 2) s
    else s

/-- `validate_request`; the request is good if `parse_state` is `psOK` then. -/
def validateRequest (x : Xcp) (s : PppState) : PppState :=
  let r := s.options
  let s := r.1.foldl (checkOption x) { s with parseState := .psOK }
  let s := if r.2 then { s with parseState := .psBad } else s
  if s.parseState = .psNak ∨ s.parseState = .psRej then
    { s with outbuffer := putLength s.outbuffer 6 (s.up - 4) }
  else s

/-- One turn of `process_rcx`. -/
def processOption (x : Xcp) (code : Byte) (s : PppState) (bp : ℕ) : PppState :=
  match findType x (s.inbuffer bp) with
  | none => s
  | some (t, i) =>
    let len := (s.inbuffer (bp + 1)).toNat
    let change (f : OptionState → OptionState) : PppState :=
      s.modify x fun p => { p with opts := Function.update p.opts i (f (p.opts i)) }
    if code = codeConfRej then change fun o => { o with unusable := true }
    else if code = codeConfAck ∨ t.validateNak = false then
      if 6 < len ∨ len ≤ 2 then change fun o => { o with myValue := t.defaultValue }
      else change fun o => { o with myValue := optionValue s.inbuffer bp }
    else change fun o => { o with myValue := get32 s.inbuffer (bp + 2) }

/-- `process_rcx`. -/
def processRcx (x : Xcp) (code : Byte) (s : PppState) : PppState := s.options.1.foldl (processOption x code) s

/-- How many events can be inside one another. -/
def depth : ℕ := 8

/-- What `std_negotiation` makes of a packet by its code: the event, where it goes, and the state then. -/
def receive (x : Xcp) (code id : Byte) (s : PppState) : Option (Xcp × PppEvent × PppState) :=
  if code = codeConfReq then
    some (x, if (validateRequest x s).parseState = .psOK then .evRCRp else .evRCRm, validateRequest x s)
  else if code = codeConfAck then if id = (s.xcp x).ident then some (x, .evRCA, processRcx x code s) else none
  else if code = codeConfNak ∨ code = codeConfRej then
    if id = (s.xcp x).ident then some (x, .evRCN, processRcx x code s) else none
  else if code = codeTermReq then some (x, .evRTR, s)
  else if code = codeTermAck then if id = (s.xcp x).ident then some (x, .evRTA, s) else none
  else if code = codeCodeRej then
    some (x, if s.inbuffer s.bp ≠ 0 ∧ s.inbuffer s.bp < codeEchoReq then .evRXJm else .evRXJp,
      { s with bp := s.bp + 1 })
  else if code = codeProtoRej then
    if get16 s.inbuffer s.bp = Xcp.lcp.proto then some (.lcp, .evRXJm, s) else some (x, .evRXJp, s)
  else if code = codeEchoReq ∨ code = codeDiscardReq then some (x, .evRXR, s)
  else if code = codeEchoRep then if id = (s.xcp x).ident then some (x, .evRXR, s) else none
  else some (x, .evRUC, { s with bp := s.bp - 4 })

/-- A Protocol-Reject for IPCP stops it, after the event. -/
def stopRejected (code : Byte) (proto : Word) (s : PppState) : PppState :=
  if code = codeProtoRej ∧ proto = Xcp.ipcp.proto then s.modify .ipcp fun p => { p with state := .stInitial } else s

/-- The second part of `std_negotiation`. -/
def negotiate (clock : ℕ → ℕ) (x : Xcp) (code id : Byte) (s : PppState) : Option PppState :=
  match receive x code id s with
  | none => some s
  | some (y, e, t) => (sendEvent clock depth y e t).map (stopRejected code (get16 s.inbuffer s.bp))

/-- `std_negotiation`. -/
def stdNegotiation (clock : ℕ → ℕ) (x : Xcp) (s : PppState) : Option PppState :=
  if s.mlen < 4 then some s
  else
    let length := (get16 s.inbuffer (s.bp + 2)).toNat
    if s.mlen < length then some { s with bp := s.bp + 2 }
    else negotiate clock x (s.inbuffer s.bp) (s.inbuffer (s.bp + 1))
      { s with bp := s.bp + 4, mlen := (length : ℤ) - 4 }

/-! ## From outside -/

/-- What `ppp_input` gets: the memory that the packet is in, and its length. -/
structure Packet where
  mem : ℕ → Byte
  len : Word

/-- The protocol of a packet. -/
def Packet.proto (p : Packet) : Word := get16 p.mem 0

/-- `PPP_MRU`, the size of `outbuffer`. -/
def pppMru : ℕ := 1500

/-- A Protocol-Reject for a packet: the length goes where code and identifier are. -/
def protocolReject (p : Packet) (s : PppState) : PppState :=
  let s := codeId .lcp codeProtoRej s
  let len := min (p.len - 2).toNat (pppMru - 6)
  let s := { s with outbuffer := putLength (blit s.outbuffer 6 p.mem 0 len) 2 (len + 6 - 4) }
  pppWrite true s.outbuffer (len + 6) s

/-- `ppp_input`. An IP packet goes to `_ip4_handler`. -/
def pppInput (clock : ℕ → ℕ) (p : Packet) (s : PppState) : Option PppState :=
  let s := { s with inbuffer := fun i => p.mem (i + 2) }
  let deliver (x : Xcp) : Option PppState := stdNegotiation clock x { s with bp := 0, mlen := (p.len - 2).toNat }
  if p.proto = pppIp then some s
  else if p.proto = Xcp.lcp.proto then deliver .lcp
  else if p.proto = Xcp.ipcp.proto then deliver .ipcp
  else if s.lcp.state = .stOpened then some (protocolReject p s)
  else some s

/-- One turn of `check_timeouts`. -/
def checkTimeout (clock : ℕ → ℕ) (now : ℕ) (x : Xcp) (s : PppState) : Option PppState :=
  if (s.xcp x).timeout ≠ 0 ∧ (s.xcp x).timeout ≤ now then
    let s := s.modify x fun p =>
      { p with timeout := 0, ident := if 0 < p.restart then p.ident - 1 else p.ident }
    sendEvent clock depth x (if 0 < (s.xcp x).restart then .evTOp else .evTOm) s
  else some s

/-- `check_timeouts`. -/
def checkTimeouts (clock : ℕ → ℕ) (s : PppState) : Option PppState :=
  let s := if s.timeoutPeriod < maxTimeout then { s with timeoutPeriod := 2 * s.timeoutPeriod } else s
  let now := clock s.readings
  (checkTimeout clock now .lcp { s with readings := s.readings + 1 }).bind (checkTimeout clock now .ipcp)

/-- `init_xcp`: the identifier and the count of Naks stay. -/
def initXcp (x : Xcp) (p : PppXcp) : PppXcp :=
  { p with
    state := .stInitial, restart := 0, timeout := 0
    opts := fun i =>
      { myValue := (x.types[i]?.map (·.defaultValue)).getD 0
        peerValue := (x.types[i]?.map (·.defaultValue)).getD 0 } }

/-- `ppp_start`, whatever was there before; `magic`, `r₁` and `r₂` are random. -/
def pppStart (clock : ℕ → ℕ) (magic : Dword) (r₁ r₂ : ℕ) (s : PppState) : Option PppState :=
  let own (o : OptionState) : OptionState :=
    { o with
      myValue := 0x0A000000 + BitVec.ofNat 32 (r₁ % 1000), peerValue := 0x0A00000A + BitVec.ofNat 32 (r₂ % 1000) }
  let s := { s with
    phase := .phDead, timeoutPeriod := initialTimeout, mymagic := magic, sent := [], set := []
    lcp := initXcp .lcp s.lcp, ipcp := initXcp .ipcp s.ipcp }
  let s := s.modify .ipcp fun p => { p with opts := Function.update p.opts 0 (own (p.opts 0)) }
  sendEvent clock depth .ipcp .evOpen s

/-- What happens. -/
inductive Op
  | input (p : Packet)
  | checkTimeouts

/-- One step; `none` if events were nested deeper than `depth`. -/
def handle (clock : ℕ → ℕ) (s : PppState) : Op → Option PppState
  | .input p => pppInput clock p { s with sent := [] }
  | .checkTimeouts => checkTimeouts clock { s with sent := [] }

end Watt32.Ppp
