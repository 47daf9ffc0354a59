import Watt32.Lib.Reads
import Watt32.Ppp.Request
import Watt32.Pppoe.Discovery

/-!
# How a session frame is read

`pppoe_handler` and `ppp_input` with what they call, up to the event that is sent: programs that read the frame byte
by byte. They have no result where they would write behind `outbuffer`.

* `pppoeHandlerR`, `pppInputR`, `stdNegotiationR`, `receiveR`, `validateRequestR`, `processRcxR`,
  `protocolRejectR`: the programs.
* `Outcome`: what is left to do then; **`finish_inputOutcome`**: with that they are the functions of the automata.
-/

namespace Watt32.Ppp

open Mem Reads

/-! ## The frame -/

/-- Where the packet of the session begins in a frame, and where `inbuffer` does, behind the protocol. -/
def packetOfs : ℕ := 20
def inOfs : ℕ := 22

/-- What `inbuffer` points to. -/
def frameData (frame : ℕ → Byte) : ℕ → Byte := fun i => frame (i + inOfs)

/-- `inbuffer [i]`, and `n` bytes from there. -/
def inCell (i : ℕ) : Reads Byte Byte := cell (i + inOfs)
def inCells (i n : ℕ) : Reads Byte (List Byte) := cells (i + inOfs) n

/-- A word of the frame, a double word, and a MAC address. -/
def get16R (i : ℕ) : Reads Byte Word := do
  let a ← cell i
  let b ← cell (i + 1)
  return a ++ b

def get32R (i : ℕ) : Reads Byte Dword := do
  let a ← cell i
  let b ← cell (i + 1)
  let c ← cell (i + 2)
  let d ← cell (i + 3)
  return a ++ b ++ c ++ d

def macR (i : ℕ) : Reads Byte Pppoe.MacAddress := do
  let a ← get32R i
  let b ← get16R (i + 4)
  return a ++ b

/-! ## Configure-Requests -/

/-- What is written ends at `up`. -/
def inRoom (s : PppState) : Option PppState := if s.up ≤ pppMru then some s else none

/-- The first option that is complained about starts a reply, with `code_reply`. -/
def startReplyR (x : Xcp) (code : Byte) (st : ParseState) (s : PppState) : Reads Byte PppState :=
  if s.parseState = st then pure s
  else do
    let ident ← inCell 3
    return { s with outbuffer := put s.outbuffer 0 (header x code ident), up := 6, parseState := st }

/-- `set_reject`. -/
def setRejectR (x : Xcp) (bp : ℕ) (s : PppState) : Reads Byte (Option PppState) :=
  if s.parseState = .psBad then pure (some s)
  else do
    let s ← startReplyR x codeConfRej .psRej s
    let len ← inCell (bp + 1)
    let i := max 2 len.toNat
    let option ← inCells bp i
    return inRoom { s with
      outbuffer := Function.update (put s.outbuffer s.up option) (s.up + 1) (BitVec.ofNat 8 i)
      up := s.up + i }

/-- `set_nak`: the bytes of `data` are read where they are written. -/
def setNakR (x : Xcp) (type : Byte) (data : Reads Byte (List Byte)) (s : PppState) : Reads Byte (Option PppState) :=
  if s.parseState = .psBad ∨ s.parseState = .psRej then pure (some s)
  else do
    let s ← startReplyR x codeConfNak .psNak s
    let data ← data
    return inRoom { s with
      outbuffer := put s.outbuffer s.up ([type, BitVec.ofNat 8 (data.length + 2)] ++ data)
      up := s.up + (data.length + 2) }

/-- `ipcp_addr_req`: the bytes of the Nak are in a variable. -/
def ipcpAddrReqR (x : Xcp) (t : XcpType) (i bp : ℕ) (s : PppState) : Reads Byte (Option PppState) := do
  let addr ← get32R (bp + inOfs)
  if addr ≠ ((s.xcp x).opts i).myValue ∧ addr &&& remoteIpMask = remoteIpBase then pure (some s)
  else setNakR x t.type (pure (be32 ((s.xcp x).opts i).peerValue)) s

/-- One turn of `validate_request`. -/
def checkOptionR (x : Xcp) (bp : ℕ) (s : PppState) : Reads Byte (Option PppState) := do
  let type ← inCell bp
  let len ← inCell (bp + 1)
  match findType x type with
  | none => setRejectR x bp s
  | some (t, i) =>
    if len.toNat < t.minlen then setNakR x t.type (inCells (bp + 2) (t.minlen - 2)) s
    else if t.maxlen < len.toNat then setNakR x t.type (inCells (bp + 2) (t.maxlen - 2)) s
    else if t.validateReq then ipcpAddrReqR x t i (bp + 2) s
    else pure (some s)

/-- The loop over the options, with what is done for one of them; the result is whether it breaks off. If there are
options after the last turn, it has not come to an end. -/
def optionLoopR (turn : ℕ → PppState → Reads Byte (Option PppState)) :
    (turns rlen bp : ℕ) → PppState → Reads Byte (Option (PppState × Bool))
  | 0, rlen, _, s => pure (if rlen = 0 then some (s, false) else none)
  | turns + 1, rlen, bp, s =>
    if rlen = 0 then pure (some (s, false))
    else if rlen < 2 then pure (some (s, true))
    else do
      let len ← inCell (bp + 1)
      if rlen < len.toNat then pure (some (s, true))
      else (turn bp s).andThen (optionLoopR turn turns (rlen - max 2 len.toNat) (bp + max 2 len.toNat))

/-- The end of `validate_request`: a request that breaks off is bad, and a reply gets its length. -/
def endRequest (r : PppState × Bool) : PppState :=
  let s := if r.2 then { r.1 with parseState := .psBad } else r.1
  if s.parseState = .psNak ∨ s.parseState = .psRej then
    { s with outbuffer := putLength s.outbuffer 6 (s.up - 4) }
  else s

/-- `validate_request`; `mlen` turns are enough for the loop. -/
def validateRequestR (x : Xcp) (s : PppState) : Reads Byte (Option PppState) :=
  (optionLoopR (checkOptionR x) s.mlen.toNat s.mlen.toNat s.bp { s with parseState := .psOK }).andThen fun r =>
    pure (some (endRequest r))

/-! ## Configure-Acks, -Naks and -Rejects -/

/-- One more byte of a value. -/
def valueByteR (len bp k : ℕ) (v : Dword) : Reads Byte Dword :=
  if k < len then do
    let b ← inCell (bp + k)
    return (v <<< 8) + b.setWidth 32
  else pure v

/-- The value of an option. -/
def optionValueR (len bp : ℕ) : Reads Byte Dword := do
  let b ← inCell (bp + 2)
  let v ← valueByteR len bp 3 (b.setWidth 32)
  let v ← valueByteR len bp 4 v
  valueByteR len bp 5 v

/-- One turn of `process_rcx`. -/
def processOptionR (x : Xcp) (code : Byte) (bp : ℕ) (s : PppState) : Reads Byte (Option PppState) := do
  let type ← inCell bp
  let len ← inCell (bp + 1)
  match findType x type with
  | none => pure (some s)
  | some (t, i) =>
    let change (f : OptionState → OptionState) : PppState :=
      s.modify x fun p => { p with opts := Function.update p.opts i (f (p.opts i)) }
    if code = codeConfRej then pure (some (change fun o => { o with unusable := true }))
    else if code = codeConfAck ∨ t.validateNak = false then
      if 6 < len.toNat ∨ len.toNat ≤ 2 then pure (some (change fun o => { o with myValue := t.defaultValue }))
      else do
        let v ← optionValueR len.toNat bp
        return some (change fun o => { o with myValue := v })
    else do
      -- `ipcp_addr_nak`
      let v ← get32R (bp + 2 + inOfs)
      return some (change fun o => { o with myValue := v })

/-- `process_rcx`. -/
def processRcxR (x : Xcp) (code : Byte) (s : PppState) : Reads Byte (Option PppState) :=
  (optionLoopR (processOptionR x code) s.mlen.toNat s.mlen.toNat s.bp s).andThen fun r => pure (some r.1)

/-! ## Packets -/

/-- What is left to do when a packet was read: nothing, or to send an event and perhaps stop IPCP. -/
inductive Outcome
  | done (s : PppState)
  | event (x : Xcp) (e : PppEvent) (s : PppState) (stop : Bool)

/-- Do it. -/
def Outcome.finish (clock : ℕ → ℕ) : Outcome → Option PppState
  | .done s => some s
  | .event x e s stop => (sendEvent clock depth x e s).map fun s =>
      if stop then s.modify .ipcp fun p => { p with state := .stInitial } else s

/-- The `switch` of `std_negotiation`. -/
def receiveR (x : Xcp) (code id : Byte) (s : PppState) : Reads Byte (Option Outcome) :=
  let send (e : PppEvent) (s : PppState) : Reads Byte (Option Outcome) := pure (some (.event x e s false))
  let ignore : Reads Byte (Option Outcome) := pure (some (.done s))
  if code = codeConfReq then
    (validateRequestR x s).andThen fun s => send (if s.parseState = .psOK then .evRCRp else .evRCRm) s
  else if code = codeConfAck then
    if id = (s.xcp x).ident then (processRcxR x code s).andThen (send .evRCA) else ignore
  else if code = codeConfNak ∨ code = codeConfRej then
    if id = (s.xcp x).ident then (processRcxR x code s).andThen (send .evRCN) else ignore
  else if code = codeTermReq then send .evRTR s
  else if code = codeTermAck then if id = (s.xcp x).ident then send .evRTA s else ignore
  else if code = codeCodeRej then do
    let rejected ← inCell s.bp
    send (if rejected ≠ 0 ∧ rejected < codeEchoReq then .evRXJm else .evRXJp) { s with bp := s.bp + 1 }
  else if code = codeProtoRej then do
    let proto ← get16R (s.bp + inOfs)
    if proto = Xcp.lcp.proto then pure (some (.event .lcp .evRXJm s false))
    else pure (some (.event x .evRXJp s (proto = Xcp.ipcp.proto)))
  else if code = codeEchoReq ∨ code = codeDiscardReq then send .evRXR s
  else if code = codeEchoRep then if id = (s.xcp x).ident then send .evRXR s else ignore
  else send .evRUC { s with bp := s.bp - 4 }

/-- `std_negotiation`. -/
def stdNegotiationR (x : Xcp) (s : PppState) : Reads Byte (Option Outcome) :=
  if s.mlen < 4 then pure (some (.done s))
  else do
    let code ← inCell s.bp
    let id ← inCell (s.bp + 1)
    let length ← get16R (s.bp + 2 + inOfs)
    if s.mlen < length.toNat then pure (some (.done { s with bp := s.bp + 2 }))
    else receiveR x code id { s with bp := s.bp + 4, mlen := (length.toNat : ℤ) - 4 }

/-- The Protocol-Reject of `ppp_input` for a packet of which `len` bytes are left behind the protocol. -/
def protocolRejectR (len : Word) (s : PppState) : Reads Byte (Option Outcome) := do
  let s := codeId .lcp codeProtoRej s
  let n := min len.toNat (pppMru - 6)
  let packet ← cells packetOfs n
  let s := { s with outbuffer := putLength (put s.outbuffer 6 packet) 2 (n + 6 - 4) }
  return if n + 6 ≤ pppMru then some (.done (pppWrite true s.outbuffer (n + 6) s)) else none

/-- `ppp_input`; an IP packet goes to `_ip4_handler`. `frame` is what `inbuffer` points to then: it is read with
`inCell` only. -/
def pppInputR (frame : ℕ → Byte) (len : Word) (s : PppState) : Reads Byte (Option Outcome) := do
  let s := { s with inbuffer := frameData frame }
  let deliver (x : Xcp) := stdNegotiationR x { s with bp := 0, mlen := (len - 2).toNat }
  let proto ← get16R packetOfs
  if proto = pppIp then pure (some (.done s))
  else if proto = Xcp.lcp.proto then deliver .lcp
  else if proto = Xcp.ipcp.proto then deliver .ipcp
  else if s.lcp.state = .stOpened then protocolRejectR (len - 2) s
  else pure (some (.done s))

/-- `PPPOE_SESS_TYPE`, `PPPOE_CODE_SESS`, and a header with `ver` and `type` 1. -/
def pppoeSessType : Word := 0x8864
def pppoeCodeSess : Byte := 0
def verType : Byte := 0x11

/-- `pppoe_handler` for a frame of a session. The branch for a frame of the discovery is `Pppoe.pppoeHandler`. -/
def pppoeHandlerR (cfg : Pppoe.Config) (c : Pppoe.Client) (frame : ℕ → Byte) (s : PppState) :
    Reads Byte (Option Outcome) := do
  let ignore : Reads Byte (Option Outcome) := pure (some (.done s))
  let head ← cell 14
  if head ≠ verType then ignore
  else do
    let proto ← get16R 12
    let dst ← macR 0
    if proto = pppoeSessType ∧ c.state = .session then do
      let code ← cell 15
      if code ≠ pppoeCodeSess then ignore
      else do
        let session ← get16R 16
        if session ≠ c.session ∨ dst = Pppoe.ethBrdcast ∨ dst ≠ cfg.ethAddr then ignore
        else do
          let src ← macR 6
          if src ≠ c.acMacAddr then ignore
          else do
            let len ← get16R 18
            pppInputR frame len s
    else ignore

/-! ## The functions of the automata -/

/-- What `std_negotiation` makes of a packet by its code. -/
def outcome (x : Xcp) (code id : Byte) (s : PppState) : Outcome :=
  match receive x code id s with
  | none => .done s
  | some (y, e, t) => .event y e t (code = codeProtoRej ∧ get16 s.inbuffer s.bp = Xcp.ipcp.proto)

/-- What `std_negotiation` makes of a packet. -/
def stdOutcome (x : Xcp) (s : PppState) : Outcome :=
  let length := (get16 s.inbuffer (s.bp + 2)).toNat
  if s.mlen < 4 then .done s
  else if s.mlen < length then .done { s with bp := s.bp + 2 }
  else outcome x (s.inbuffer s.bp) (s.inbuffer (s.bp + 1)) { s with bp := s.bp + 4, mlen := (length : ℤ) - 4 }

/-- What `ppp_input` makes of a packet. -/
def inputOutcome (p : Packet) (s : PppState) : Outcome :=
  let s := { s with inbuffer := fun i => p.mem (i + 2) }
  let deliver (x : Xcp) : Outcome := stdOutcome x { s with bp := 0, mlen := (p.len - 2).toNat }
  if p.proto = pppIp then .done s
  else if p.proto = Xcp.lcp.proto then deliver .lcp
  else if p.proto = Xcp.ipcp.proto then deliver .ipcp
  else if s.lcp.state = .stOpened then .done (protocolReject p s)
  else .done s

variable {clock : ℕ → ℕ} {x : Xcp} {s : PppState}

theorem finish_outcome (code id : Byte) :
    (outcome x code id s).finish clock = negotiate clock x code id s := by
  unfold outcome negotiate
  cases receive x code id s with
  | none => rfl
  | some r =>
    refine congrArg (fun f => Option.map f _) (funext fun t => ?_)
    simp only [stopRejected, decide_eq_true_eq]

theorem finish_stdOutcome : (stdOutcome x s).finish clock = stdNegotiation clock x s := by
  unfold stdOutcome stdNegotiation
  simp only
  split_ifs
  · rfl
  · rfl
  · exact finish_outcome ..

/-- What is left to do is what the automata do. -/
theorem finish_inputOutcome (p : Packet) : (inputOutcome p s).finish clock = pppInput clock p s := by
  unfold inputOutcome pppInput
  simp only
  split_ifs
  · rfl
  · exact finish_stdOutcome
  · exact finish_stdOutcome
  · rfl
  · rfl

end Watt32.Ppp
