import Watt32.Tcp.Options
import Watt32.Udp.Handler

/-!
# Received ICMP messages

`icmp_handler` and `icmp_redirect` of `pcicmp.c`, with the search for a socket of `_tcp_cancel` and
`_udp_cancel` of `pctcp.c`, as programs that read the packet.

* `Table`: the tables of names; a `Result` lists the indices into them.
* `tcpCancelR`, `udpCancelR`: which socket a quoted header is about.
* `icmpHandlerR`: the handler.
-/

namespace Watt32.Icmp

open Reads
open Tcp (Packet inGetHdrLen inLength inChecksum readWord readDword readWordR readDwordR packetOf)
open Udp (ip4IsMultihomeAddr)

/-! ## What the handler knows -/

/-- The ports and the peer of a socket. -/
structure Sock where
  myport : Word
  hisport : Word
  hisaddr : Dword
  deriving DecidableEq

/-- `do_redirect`. -/
structure DoRedirect where
  icmp : Bool := true
  igmp : Bool := true
  udp : Bool := true
  tcp : Bool := true

/-- The variables the handler reads, and the sockets. -/
structure Globals where
  host : Udp.Globals := {}
  blockIcmp : Bool := false
  doMaskReq : Bool := false
  addrMaskId : Word := 0
  addrMaskSeq : Word := 0
  doRedirect : DoRedirect := {}
  tcpSocks : List Sock := []
  udpSocks : List Sock := []

/-- The tables of names. -/
inductive Table
  | typeStr | unreachStr | redirectStr | exceedStr
  deriving DecidableEq

/-- `DIM`. -/
def Table.dim : Table → ℕ
  | typeStr => 19
  | unreachStr => 16
  | redirectStr => 4
  | exceedStr => 2

/-- What becomes of a message: of a cancelled socket its number, if one is found. -/
inductive Action
  | none
  | addPing (identifier : Word) (index : Dword)
  | echoReply
  | tcpCancel (sock : Option ℕ) (type code : Byte) (arg : Dword)
  | udpCancel (sock : Option ℕ) (type code : Byte) (arg : Dword)
  | arpRegister (newIp oldIp : Dword)
  | conflictingMask
  deriving DecidableEq

/-- The names that are looked up, and the action. -/
structure Result where
  names : List (Table × ℕ) := []
  act : Action := .none

/-! ## Header fields -/

/-- `*(WORD*)p`. -/
def rawWordR (p : ℕ) : Reads Byte Word := do
  let b₀ ← cell p
  let b₁ ← cell (p + 1)
  return b₁ ++ b₀

/-- `*(DWORD*)p`. -/
def rawDwordR (p : ℕ) : Reads Byte Dword := do
  let w₀ ← rawWordR p
  let w₁ ← rawWordR (p + 2)
  return w₁ ++ w₀

/-- The length an IP header states in its first byte. -/
def hdrLen (b : Byte) : ℕ := 4 * (b.extractLsb' 0 4).toNat

/-- `_ip4_is_local_addr`. -/
def ip4IsLocalAddr (g : Globals) (a : Dword) : Bool :=
  g.host.sinMask ≠ 0xffffffff ∧ (a >>> 24 = 127 ∨ ip4IsMultihomeAddr g.host a)

/-- `icmp_bogus` looks up the type. -/
def icmpBogus (type : ℕ) : Result := { names := [(.typeStr, type)] }

/-- `icmp_check`: the source is unicast and the destination no group. -/
def icmpCheck (g : Globals) (ip : Packet) : Bool :=
  let src := readDword ip 12
  let dst := readDword ip 16
  ~~~src &&& ~~~g.host.sinMask ≠ 0 ∧ src ≠ 0 ∧ dst.extractLsb' 28 4 ≠ 14 ∧ dst.extractLsb' 28 4 ≠ 15

/-! ## The socket of a quoted header -/

/-- The socket whose ports pass `test` and whose peer is the destination of the header at `q`. -/
def demuxR (test : Sock → Bool) (q : ℕ) : List Sock → ℕ → Reads Byte (Option ℕ)
  | [], _ => pure none
  | s :: socks, i =>
    if test s then do
      let dst ← readDwordR (q + 16)
      if dst = s.hisaddr then pure (some i) else demuxR test q socks (i + 1)
    else demuxR test q socks (i + 1)

/-- The port test of `_tcp_cancel`. -/
def tcpPorts (src dst : Word) (s : Sock) : Bool := src = s.myport ∧ dst = s.hisport

/-- The port test of `_udp_cancel`. -/
def udpPorts (src dst : Word) (s : Sock) : Bool := s.hisport ≠ 0 ∧ dst = s.hisport ∧ src = s.myport

/-- `_tcp_cancel`: the socket. -/
def tcpCancelR (socks : List Sock) (q : ℕ) : Reads Byte (Option ℕ) := do
  let b ← cell q
  let src ← readWordR (q + hdrLen b)
  let dst ← readWordR (q + hdrLen b + 2)
  demuxR (tcpPorts src dst) q socks 0

/-- `_udp_cancel`: the socket, an active one first. -/
def udpCancelR (socks : List Sock) (q : ℕ) : Reads Byte (Option ℕ) := do
  let b ← cell q
  let src ← readWordR (q + hdrLen b)
  let dst ← readWordR (q + hdrLen b + 2)
  let active ← demuxR (udpPorts src dst) q socks 0
  return active <|> socks.findIdx? fun s => s.hisport = 0 ∧ dst = s.myport

/-- `_tcp_cancel` for a quoted TCP header, `_udp_cancel` for a quoted UDP header. -/
def cancelR (g : Globals) (q : ℕ) (proto type code : Byte) (arg : Dword) : Reads Byte Action :=
  if proto = 6 then do
    let sock ← tcpCancelR g.tcpSocks q
    return .tcpCancel sock type code arg
  else if proto = 17 then do
    let sock ← udpCancelR g.udpSocks q
    return .udpCancel sock type code arg
  else pure .none

/-! ## The types of messages -/

section Types

variable (g : Globals) (ip : Packet) (icmp : ℕ) (len : ℕ)

/-- `orig_ip`. -/
def origIp : ℕ := icmp + 8

/-- `icmp_redirect` after the test of the gateway. -/
def redirectR (code : Byte) (newIp oldIp : Dword) : Reads Byte Result := do
  let proto ← cell (origIp icmp + 9)
  let names := [(Table.redirectStr, code.toNat)]
  let registered : Result := { names := names, act := .arpRegister newIp oldIp }
  if proto = 1 then return if g.doRedirect.icmp then registered else { names := names }
  else if proto = 2 then return if g.doRedirect.igmp then registered else { names := names }
  else if (proto = 6 ∧ g.doRedirect.tcp = false) ∨ (proto = 17 ∧ g.doRedirect.udp = false) then
    return { names := names }
  else
    let act ← cancelR g (origIp icmp) proto 5 code newIp
    return { names := names, act := act }

/-- The new gateway is another host, not on our subnet. -/
def offSubnet (newIp oldIp : Dword) : Bool :=
  newIp ≠ oldIp ∧ (newIp ^^^ g.host.myIpAddr) &&& g.host.sinMask ≠ 0

/-- `icmp_redirect`. -/
def icmpRedirectR (code : Byte) : Reads Byte Result := do
  let newIp ← readDwordR (icmp + 4)
  let oldIp ← readDwordR (origIp icmp + 16)
  if offSubnet g newIp oldIp then return icmpBogus 5
  else redirectR g icmp code newIp oldIp

/-- `ICMP_UNREACH`. -/
def unreachR (code : Byte) : Reads Byte Result :=
  if code.toNat < Table.unreachStr.dim then do
    let b ← cell (origIp icmp)
    let proto ← cell (origIp icmp + 9)
    let names := [(Table.unreachStr, code.toNat)]
    let needed := 8 + hdrLen b + if proto = 6 ∨ proto = 17 then 4 else 0
    if needed ≤ len then
      let nextMtu ← if code = 4 then readWordR (icmp + 6) else pure 0
      let act ← cancelR g (origIp icmp) proto 3 code (nextMtu.setWidth 32)
      return { names := names, act := act }
    else return { names := names }
  else pure {}

/-- `ICMP_SOURCEQUENCH`, for TCP. -/
def quenchR (code : Byte) : Reads Byte Result := do
  let proto ← cell (origIp icmp + 9)
  if proto = 6 then
    let act ← cancelR g (origIp icmp) proto 4 code 0
    return { names := [(.typeStr, 4)], act := act }
  else return {}

/-- `ICMP_TIMXCEED`. -/
def timxceedR (code : Byte) : Reads Byte Result :=
  if code = 0 then do
    let proto ← cell (origIp icmp + 9)
    let act ← cancelR g (origIp icmp) proto 11 code 0
    return { names := if proto = 6 ∨ proto = 17 then [(.exceedStr, 0)] else [], act := act }
  else pure {}

/-- `ICMP_PARAMPROB`. -/
def paramprobR (code : Byte) : Reads Byte Result := do
  let proto ← cell (origIp icmp + 9)
  let act ← cancelR g (origIp icmp) proto 12 code 0
  return { names := [(.typeStr, 12)], act := act }

/-- `ICMP_MASKREPLY`. -/
def maskreplyR : Reads Byte Result := do
  let identifier ← rawWordR (icmp + 4)
  let sequence ← rawWordR (icmp + 6)
  let mask ← readDwordR (icmp + 8)
  return {
    names := [(.typeStr, 18)]
    act := if identifier = g.addrMaskId ∧ sequence.toNat + 1 = g.addrMaskSeq.toNat ∧ g.host.sinMask ≠ mask then
      .conflictingMask else .none }

/-- `ICMP_ECHOREPLY`. -/
def echoreplyR : Reads Byte Result := do
  let identifier ← rawWordR (icmp + 4)
  let index ← rawDwordR (icmp + 8)
  return { act := .addPing identifier index }

/-- `icmp_echo_reply`. -/
def echo : Result := if icmpCheck g ip then { act := .echoReply } else icmpBogus 8

/-- The `switch` of `icmp_handler`. -/
def switchR (type code : Byte) : Reads Byte Result :=
  match type.toNat with
  | 0 => echoreplyR icmp
  | 3 => unreachR g icmp len code
  | 4 => quenchR g icmp code
  | 5 => if code.toNat < Table.redirectStr.dim then icmpRedirectR g icmp code else pure {}
  | 8 => pure (echo g ip)
  | 9 | 10 | 13 | 14 | 15 | 16 => pure { names := [(.typeStr, type.toNat)] }
  | 11 => timxceedR g icmp code
  | 12 => paramprobR g icmp code
  | 18 => maskreplyR g icmp
  | _ => pure {}

/-- The types that need not quote a packet of ours. -/
def unquoted (type : Byte) : Bool := type = 0 ∨ type = 8 ∨ type = 16 ∨ type = 13

/-- `icmp_handler` on a message whose sum is right. -/
def messageR : Reads Byte Result := do
  let type ← cell icmp
  let code ← cell (icmp + 1)
  let source ← readDwordR (origIp icmp + 12)
  if type = 18 ∧ g.doMaskReq = false then return {}
  else if ip4IsLocalAddr g source = false ∧ type ≠ 18 ∧ unquoted type = false then
    return icmpBogus type.toNat
  else switchR g ip icmp len type code

end Types

/-! ## The handler -/

/-- `len`. -/
def icmpLen (ip : Packet) : ℕ := ((inLength ip).setWidth 32 - BitVec.ofNat 32 (inGetHdrLen ip) : Dword).toNat

/-- The tests before the message is looked at; the sum reads its `len` bytes. -/
def accepts (g : Globals) (ip : Packet) (broadcast : Bool) : Bool :=
  g.blockIcmp = false ∧ ip4IsMultihomeAddr g.host (readDword ip 16) ∧ broadcast = false ∧
    8 ≤ icmpLen ip ∧ inChecksum (Mem.slice ip (inGetHdrLen ip) (icmpLen ip)) = 65535

/-- `icmp_handler`. -/
def icmpHandlerR (g : Globals) (ip : Packet) (broadcast : Bool) : Reads Byte Result :=
  if accepts g ip broadcast then messageR g ip (inGetHdrLen ip) (icmpLen ip) else pure {}

end Watt32.Icmp
